import BuildMeta.Build.External
import BuildMeta.BuildConfig.Make
import BuildMeta.InstallConfig
import BuildMeta.Options.Defaults
import BuildMeta.Repo.Verify

/-!
# Configuring a build

Loads a repository, evaluates its options for the platform and flavour, finds external libraries and
sets the variables of the build tool.
-/

namespace BuildMeta.Build

/-- What is configured for a repository. -/
structure Configured where
  build : BuildConfig
  install : InstallConfig

namespace Configure

/-- Shows a label with values, if there are any. -/
def showList (label : String) (values : List String) : Step Unit := do
  unless values.isEmpty do Step.say (.entry label (Text.join " " values))

/-- Shows the platform and flavour. -/
def showTarget (s : Setup) (uplid actual : Uplid) (ufid : Ufid) : Step Unit := do
  Step.say (.entry "Prefix" ((← Step.vars).text "PREFIX"))
  if uplid == actual then Step.say (.entry "Uplid" uplid.render)
  else
    Step.say (.entry "Uplid - effective (this is *used*):" (uplid.render ++ " (from BDE_WAF_UPLID)"))
    Step.say (.entry "Uplid - actual (this is *not* used):" actual.render)
  let override ← Step.setting? Toolchain.ufidSetting
  Step.say (.entry "Ufid" (ufid.render ++ if override.isSome then " (from BDE_WAF_UFID)" else ""))
  if ← (s.option "verbose").isAtLeast 1 then
    Step.say (.entry "OS type" uplid.osType)
    Step.say (.entry "OS name" uplid.osName)
    Step.say (.entry "CPU type" uplid.cpuType)
    Step.say (.entry "OS version" uplid.osVersion)
    Step.say (.entry "Compiler type" uplid.compilerType)
    Step.say (.entry "Compiler version" uplid.compilerVersion)

/-- Checks a repository. -/
def verify (s : Setup) (context : Context) : Step Unit := do
  Step.say (.entry "Performing additional checks" "")
  unless ← (context.verify s.tree : Logged Bool) do Step.fatal "Repo verification failed."

/-- The form of flags that a variable gives a template for. -/
def flagForm (v : Variables) (name : String) (nameEnds : Bool) : Except Failure FlagForm :=
  match v.value name with
  | .str template => FlagForm.ofTemplate template nameEnds
  | _ => .error .absentAttribute

/-- How flags are written, by the variables of the build tool. -/
def style (v : Variables) (uplid : Uplid) : Except Failure FlagStyle := do
  return {
    sharedMarker := (v.value "SHLIB_MARKER").str?
    staticMarker := (v.value "STLIB_MARKER").str?
    library := ← flagForm v "LIB_ST" true
    libraryPath := ← flagForm v "LIBPATH_ST" false
    includePath := ← flagForm v "CPPPATH_ST" false
    define := if uplid.compilerType == "cl" then "/D" else "-D" }

/-- The rule by which warnings of a compiler on sources are errors. -/
def warningRule (compiler : String) : Rule where
  command := .add
  uplid := { compilerType := compiler }
  ufid := Ufid.ofFlags []
  key := "COMPONENT_BDEBUILD_CXXFLAGS"
  value := "-Werror"

/-- The rules that apply before those of the units. -/
def defaultRules (s : Setup) (refusesWarnings : Bool) : Step (List Rule) := do
  let root := ((← get).environment.get? "BDE_ROOT").getD ""
  let rules ← (Options.defaults s.tree (s.option "verify").truthy s.tools root : Logged (List Rule))
  return rules ++ if refusesWarnings then [warningRule "gcc", warningRule "clang"] else []

/-- The names that an option lists between commas; there are none if it is not given. -/
def listed : Datum → Except Failure (List String)
  | .null => .ok []
  | .str names => .ok (Text.split ',' names)
  | _ => .error .absentAttribute

/-- The build configuration of a repository. -/
def buildConfig (s : Setup) (uplid : Uplid) (ufid : Ufid) (refusesWarnings : Bool)
    (context : Context) : Step BuildConfig := do
  let style ← style (← Step.vars) uplid
  let rules ← defaultRules s refusesWarnings
  let plan : BuildConfig.Plan :=
    { style
      uplid := uplid
      ufid := ufid
      shell := s.host.shell
      environment := (← get).environment
      watched := ← listed (s.option "debug_opt_keys") }
  BuildConfig.make plan context rules

/-- Whether an exported flag belongs to one flavour of a library. -/
def isFlavourFlag (flag : String) : Bool :=
  Text.contains flag "BDE_BUILD_TARGET" || Text.contains flag "NDEBUG"

/-- The configuration with flavour flags dropped from what the base group exports: an installed
pkg-config file serves the libraries of all flavours. -/
def dropFlavourFlags (b : BuildConfig) : BuildConfig :=
  match b.groups.get? "bsl" with
  | none => b
  | some g =>
    let flags := { g.flags with
      exportFlags := g.flags.exportFlags.map fun fs => fs.filter (!isFlavourFlag ·) }
    { b with groups := b.groups.set "bsl" { g with flags } }

/-- Shows where things are installed. -/
def showInstall (c : InstallConfig) : Step Unit := do
  Step.say (.entry "Use flat include directory" (if c.flatInclude then "yes" else "no"))
  Step.say (.entry "Lib install directory" c.libDir)
  Step.say (.entry "Pkg-config install directory" c.pcDir)
  if c.libSuffix != "" then Step.say (.entry "Lib name suffix" c.libSuffix)

/-- The numbers of units of release, inner packages and components. -/
def counts (b : BuildConfig) : List Nat :=
  [b.groups.size + b.standAlones.size + b.thirdParties.size, b.inners.size,
    ((b.inners.values.map BuildConfig.innerCount) ++
      b.standAlones.values.map (·.components.length)).foldl (· + ·) 0]

/-! ## Variables of the build tool -/

/-- Adds compiler flags before those of a variable. -/
def insertFlags (flags : List String) (v : Variables) (name : String) : Except Failure Variables :=
  if flags.isEmpty then .ok v
  else match v.value name with
    | .list xs => .ok (v.put name (.list (flags.map Datum.str ++ xs)))
    | _ => .error .wrongType

/-- The run-time library of the Windows compiler. -/
def runtimeFlag (s : Setup) (ufid : Ufid) : String :=
  (if (s.option "msvc_runtime_type").str? == some "dynamic" then "/MD" else "/MT") ++
    if ufid.has "dbg" then "d" else ""

/-- The variables for Windows. -/
def adaptWindows (s : Setup) (ufid : Ufid) (v : Variables) : Except Failure Variables := do
  let flag := runtimeFlag s ufid
  let v := (v.append "CFLAGS" [flag]).append "CXXFLAGS" [flag]
  if !v.has "INCLUDES_BSL" then return v
  let v ← v.extend "INCLUDES_BSL" []
  return (← v.extend "INCLUDES_BSL" (← (v.value "INCLUDES").members)).clear "INCLUDES"

/-- The variables for the compiler of AIX. -/
def adaptAix (ufid : Ufid) (v : Variables) : Variables :=
  let v := v.putWords "LINKFLAGS_cxxshlib" ["-G", "-brtl"]
  let v := v.putWords "LINKFLAGS_cshlib" ["-G", "-brtl"]
  let v := v.put "SHLIB_MARKER" (.str "-bdynamic")
  let v := v.put "STLIB_MARKER" (.str "-bstatic")
  if ufid.has "64" then v.putWords "ARFLAGS" ["-rcs", "-X64"] else v

/-- The variables for the compiler of Solaris. -/
def adaptSolaris (ufid : Ufid) (v : Variables) : Except Failure Variables :=
  let v := (v.put "SONAME_ST" (.str "-h %s")).put "DEST_BINFMT" (.str "elf")
  if ufid.has "shr" then
    v.extend "LINKFLAGS" (["-zdefs", "-lCstd", "-lCrun", "-lc", "-lm", "-lsunmath",
      "-lpthread"].map Datum.str)
  else .ok v

/-- The variables for a platform and flavour, with the compiler flags of the environment. -/
def adapt (s : Setup) (uplid : Uplid) (ufid : Ufid) (flags : List String) (v : Variables) :
    Except Failure Variables := do
  let v ← ["CFLAGS", "CXXFLAGS"].foldlM (insertFlags flags) v
  let v ← if uplid.osType == "windows" then adaptWindows s ufid v else pure v
  let v := if uplid.compilerType == "xlc" then adaptAix ufid v else v
  if uplid.osName == "sunos" && uplid.compilerType == "cc" then adaptSolaris ufid v else return v

/-! ## Configuring -/

/-- Configures a repository for a platform and flavour. -/
def repository (s : Setup) (uplid actual : Uplid) (ufid : Ufid) (refusesWarnings : Bool) :
    Step Configured := do
  showTarget s uplid actual ufid
  let context ← (Context.load s.tree (s.option "verify").truthy s.root : Logged Context)
  if (s.option "verify").truthy then verify s context
  let build ← buildConfig s uplid ufid refusesWarnings context
  showList "Configured package groups" (Text.sort build.groups.keys)
  showList "Configured stand-alone packages" (Text.sort build.standAlones.keys)
  showList "Configured third-party packages" (Text.sort build.thirdParties.keys)
  showList "Loading external dependencies" (Text.sort build.externalDeps)
  External.find s ufid build.externalDeps
  build.sonames.entries.forM fun (name, soname) =>
    Step.say (.entry ("Override SONAME for " ++ name) soname)
  let dpkg := (s.option "use_dpkg_install").truthy
  let libDir ← if dpkg then pure "" else (s.option "libdir").needText
  let install := InstallConfig.make ufid dpkg (s.option "use_flat_include_dir").truthy
    libDir (s.option "bindir").strD (s.option "lib_suffix").strD
  let build := if dpkg then dropFlavourFlags build else build
  showInstall install
  showList "# UORs, inner packages, and components" ((counts build).map toString)
  if ← (s.option "verbose").isAtLeast 2 then
    Step.say (.entry "Build configuration details" "<build config>")
  let flags := Text.words (((← get).environment.get? "BDE_WAF_COMP_FLAGS").getD "")
  let v ← adapt s uplid ufid flags (← Step.vars)
  Step.change fun _ => v
  return { build, install }

/-- The tool that runs test drivers. -/
def testTool : String := "bdebuild.waf.bdeunittest"

/-- Whether warnings on sources are errors: as the command line says, or else by the compiler. -/
def refusesWarnings (s : Setup) (uplid : Uplid) (ufid : Ufid) : Bool :=
  let choice := s.option "werror"
  if choice.isNull then Toolchain.refusesWarnings uplid ufid else choice.str? == some "cpp"

/-- Configures a build. -/
def steps (s : Setup) : Step Configured := do
  let ufid ← Toolchain.ufid s
  if s.host.family == "win32" then
    if let some text ← Step.setting? Toolchain.uplidSetting then
      let _ ← (Uplid.parse text : Except Failure Uplid)
  Step.record (.load "compiler_c")
  Step.record (.load "compiler_cxx")
  Toolchain.checkCompilers
  Step.record (.load testTool)
  let (uplid, actual) ← Toolchain.uplids s
  let ufid ← Toolchain.withStandard s uplid ufid
  repository s uplid actual ufid (refusesWarnings s uplid ufid)

/-- A reported failure ends the build with its message. -/
def asFatal (e : Failure) : Failure := if e.isReported then .fatal e.message else e

end Configure

/-- Configures a build; what is wrong with the repository or the machine ends it with a message. -/
def configure (s : Setup) : Step Configured := Step.rewording Configure.asFatal (Configure.steps s)

end BuildMeta.Build
