import BuildMeta.Build.Configure

/-!
# Describing a build

Hands the units of a configured repository to the build tool as task generators, in order of their
dependencies.
-/

namespace BuildMeta.Build

/-- What is asked of the build tool. -/
structure Request where
  command : String := "build"
  /-- The targets, separated by commas; all of them if it is empty. -/
  targets : String := ""
  /-- The values of the command line. -/
  options : Table Datum := ∅

/-- A value of the command line. -/
def Request.option (r : Request) (name : String) : Datum := r.options.getD name .null

namespace Describe

/-- What generators are made from. -/
structure Plan where
  config : BuildConfig
  install : InstallConfig
  runsTests : Bool
  buildsTests : Bool

namespace Plan

/-- Whether shared libraries are built. -/
def isShared (p : Plan) : Bool := p.config.ufid.has "shr"

/-- The feature that makes a library. -/
def libraryFeature (p : Plan) : String := if p.isShared then "cxxshlib" else "cxxstlib"

/-- The path of a unit relative to the repository. -/
def relative (p : Plan) (path : String) : String := Path.relative path p.config.root

/-- The directory of a unit. -/
def directory (p : Plan) (path : String) : String :=
  Path.normalize (Path.join p.config.root (p.relative path))

/-- The names of the libraries of third-party directories. -/
def thirdPartyTargets (p : Plan) : List String := p.config.thirdParties.keys.map libTarget

end Plan

/-- Adds a generator. -/
def generate (g : Generator) : Step Unit := Step.record (.generator g)

/-- The libraries of units, as the build tool names them. -/
def uses (deps : List String) : List String := (Text.sort deps).map libTarget

/-- External libraries, as the build tool names them. -/
def externals (deps : List String) : List String := (Text.sort deps).map Text.upper

/-! ## pkg-config files -/

/-- The pkg-config file of a unit. -/
def pcFile (p : Plan) (unit : String) (doc : Option UnitDoc) (version : Option ReleaseVersion)
    (deps externalDeps : List String) (flags : BuildFlags) : PcFile where
  unit := unit
  doc := doc
  version := version
  libName := p.install.targetName unit
  deps := (Text.sortedSet (deps ++ externalDeps)).map (· ++ p.install.libSuffix)
  libDir := p.install.pcLibDir
  includeDir := p.install.pcIncludeDir unit false
  exportLibs := flags.exportLibs.getD []
  extraIncludes := InstallConfig.pcExtraIncludes unit
  exportFlags := flags.exportFlags.getD []
  installPath := p.install.pcPath unit

/-- Adds the generator of a pkg-config file, and writes the file. -/
def addPcFile (p : Plan) (file : PcFile) : Step Unit := do
  generate (.pcFile (Path.join p.config.root "vc") file)
  let v ← Step.vars
  Step.record (.pcText (← file.render (v.text "PREFIX") (v.value "LIB_ST")
    (v.value "CPPPATH_ST")))

/-! ## Packages -/

/-- What the generators of a package need, be it stand-alone or in a group. -/
structure Package where
  name : String
  path : String
  flags : BuildFlags
  hasDums : Bool
  components : List Component
  uses : List String
  externals : List String
  libPath : Option String
  headerPath : Option String
  dependsOn : Option (List String)

/-- The features that compile the sources of a package. -/
def languageFeatures (components : List Component) : List String :=
  (if components.any (·.language == .c) then ["c"] else []) ++
    if components.any (·.language == .cxx) then ["cxx"] else []

/-- The generator that compiles the dummy definitions of a package, if it has any. -/
def dumsUses (name : String) (hasDums : Bool) : List String :=
  if hasDums then [dumsTarget name] else []

/-- Adds the generators for the dummy definitions of a package. -/
def addDums (p : Plan) (k : Package) : Step Unit := do
  if k.hasDums then
    generate (.dumsCopy k.name (p.directory k.path))
    generate (.dumsObject k.name (p.directory k.path) k.flags.cflags k.flags.cincludes)

/-- The library of a package. -/
def packageLibrary (p : Plan) (k : Package) : PackageLibrary where
  package := k.name
  path := p.directory k.path
  plus := false
  sources := k.components.map Component.source
  features := languageFeatures k.components ++ [p.libraryFeature]
  compile := .ofSources k.flags
  linkflags := k.flags.linkflags
  libs := k.flags.libs
  stlibs := k.flags.stlibs
  uses := k.uses
  externals := k.externals
  installPath := k.libPath
  dependsOn := k.dependsOn

/-- The libraries that a test driver uses.  In a shared build it is linked with the third-party
libraries of its package too, which are always static. -/
def testUses (p : Plan) (k : Package) : List String :=
  [libTarget k.name] ++ dumsUses k.name k.hasDums ++
    if p.isShared then Text.sortedSet (k.uses.filter p.thirdPartyTargets.contains) else []

/-- The name of a test driver. -/
def testName (c : Component) : String := c.name ++ ".t"

/-- The test driver of a component. -/
def testDriver (p : Plan) (k : Package) (c : Component) : Executable where
  name := testName c
  role := .testDriver
  path := p.directory k.path
  target := testName c
  source := c.testDriver
  features := (if c.language == .cxx then ["cxx", "cxxprogram"] else ["c", "cprogram"]) ++
    if p.runsTests then ["test"] else []
  compile := .ofTests k.flags
  linkflags := k.flags.linkflags
  libs := k.flags.libs
  stlibs := k.flags.stlibs
  libpaths := k.flags.libpaths
  uses := testUses p k
  externals := k.externals

/-- Adds the generators for the test drivers of a package. -/
def addTests (p : Plan) (k : Package) : Step Unit := do
  if p.buildsTests then
    let tested := k.components.filter (·.hasTestDriver)
    tested.forM fun c => generate (.executable (testDriver p k c))
    generate (.umbrella (testTarget k.name) (some (tested.map testName)))
  else generate (.umbrella (testTarget k.name) none)

/-- Installs files. -/
def installFiles (place : String) (files : List String) : Step Unit :=
  Step.record (.install place (Text.sort files))

/-- Adds the generators of a package. -/
def addPackage (p : Plan) (k : Package) : Step Unit := do
  addDums p k
  generate (.packageLibrary (packageLibrary p k))
  addTests p k
  if let some place := k.headerPath then
    installFiles place (k.components.map fun c => Path.join (p.relative k.path) c.header)

/-! ## Stand-alone packages -/

/-- The executable of an application package. -/
def application (p : Plan) (k : PackageConfig) : Executable where
  name := appTarget k.name
  role := .application (p.install.binPath (k.appMain.getD ""))
  path := p.directory k.path
  target := p.install.targetName (k.appMain.getD "")
  source := k.appMain.getD "" ++ ".m.cpp"
  features := ["cxx", "cxxprogram"]
  compile := .ofSources k.flags
  linkflags := k.flags.linkflags
  libs := k.flags.libs
  stlibs := k.flags.stlibs
  libpaths := k.flags.libpaths
  uses := [libTarget k.name] ++ dumsUses k.name k.hasDums
  externals := externals k.externalDeps

/-- Adds the generators of a stand-alone package. -/
def addStandAlone (p : Plan) (k : PackageConfig) : Step Unit := do
  addPcFile p (pcFile p k.name k.doc k.version k.deps k.externalDeps k.flags)
  addPackage p
    { name := k.name, path := k.path, flags := k.flags, hasDums := k.hasDums
      components := k.components, uses := uses k.deps, externals := externals k.externalDeps
      libPath := p.install.libPath k.name, headerPath := p.install.headerPath k.name false ""
      dependsOn := some [pcTarget k.name] }
  let isApplication := k.kind == .application
  if isApplication then generate (.executable (application p k))
  generate (.umbrella k.name (some ([libTarget k.name, testTarget k.name] ++
    if isApplication then [appTarget k.name] else [])))

/-! ## Groups -/

/-- The library of a plus package. -/
def plusLibrary (p : Plan) (g : GroupConfig) (k : InnerConfig) : PackageLibrary where
  package := k.name
  path := p.directory k.path
  plus := true
  sources := Text.sort k.files.cppSources
  features := ["cxx", p.libraryFeature]
  compile := .ofSources k.flags
  linkflags := k.flags.linkflags
  libs := k.flags.libs
  stlibs := k.flags.stlibs
  uses := uses (k.deps ++ g.deps).eraseDups
  externals := externals g.externalDeps
  installPath := none
  dependsOn := none

/-- Adds the generators of a plus package.  Its headers keep their directories. -/
def addPlus (p : Plan) (g : GroupConfig) (k : InnerConfig) (headerPath : Option String) :
    Step Unit := do
  generate (.packageLibrary (plusLibrary p g k))
  generate (.umbrella (testTarget k.name) none)
  if let some place := headerPath then
    (k.files.headers.map Path.dirName).eraseDups.forM fun dir =>
      installFiles (Path.join place dir)
        ((k.files.headers.filter (Path.dirName · == dir)).map fun h =>
          Path.joinAll (p.relative k.path) [dir, Path.baseName h])

/-- Adds the generators of a package of a group. -/
def addInner (p : Plan) (g : GroupConfig) (k : InnerConfig) : Step Unit := do
  let headerPath := p.install.headerPath g.name false k.name
  if k.kind == .plus then addPlus p g k headerPath
  else
    addPackage p
      { name := k.name, path := k.path, flags := k.flags, hasDums := k.hasDums
        components := k.components, uses := uses (k.deps ++ g.deps).eraseDups
        externals := externals g.externalDeps, libPath := none, headerPath, dependsOn := none }
  generate (.umbrella k.name (some [libTarget k.name, testTarget k.name]))

/-- The library of a group. -/
def groupLibrary (p : Plan) (g : GroupConfig) (packages : List String) : GroupLibrary where
  group := g.name
  path := p.directory g.path
  target := p.install.targetName g.name
  features := ["cxx", p.libraryFeature]
  linkflags := g.flags.linkflags
  libs := g.flags.libs
  stlibs := g.flags.stlibs
  libpaths := g.flags.libpaths
  packages := packages
  uses := uses g.deps
  externals := externals g.externalDeps
  installPath := p.install.libPath g.name
  version := g.version
  soname := p.config.sonames.get? g.name

/-- Adds the generators of a group. -/
def addGroup (p : Plan) (g : GroupConfig) : Step Unit := do
  let packages ← (do (← p.config.packageGraph g.name).order : Except Failure (List String))
  packages.forM fun name =>
    match p.config.inners.get? name with
    | some k => addInner p g k
    | none => throw .absentKey
  addPcFile p (pcFile p g.name g.doc g.version g.deps g.externalDeps g.flags)
  generate (.groupLibrary (groupLibrary p g packages))
  generate (.umbrella g.name (some (libTarget g.name :: packages.map testTarget)))

/-- Adds what a unit of release asks for. -/
def addRelease (p : Plan) (name : String) : Step Unit := do
  if let some g := p.config.groups.get? name then addGroup p g
  if let some k := p.config.standAlones.get? name then addStandAlone p k
  if let some t := p.config.thirdParties.get? name then Step.record (.enter (p.relative t.path))

/-! ## Preparing -/

/-- The parts that can be installed alone. -/
def withPart (c : InstallConfig) (part : String) : InstallConfig :=
  { c with
    installsLibs := part == "all" || part == "lib"
    installsBins := part == "all" || part == "bin"
    installsHeaders := part == "all" || part == "h"
    installsPc := part == "all" || part == "pc" }

/-- The units and parts to be installed by a command. -/
def selection (r : Request) (c : Configured) (graph : Digraph) : Step InstallConfig := do
  if r.command != "install" && r.command != "uninstall" then return c.install
  let withDeps := (r.option "install_dep").strD == "yes"
  let (done, selected) := (InstallConfig.select r.targets withDeps graph).on c.install
  let () ← done
  Step.say (.info ("Waf: Installing UORs: " ++ Text.join "," (Text.sort selected.selected)))
  return withPart selected (r.option "install_parts").strD

/-- The warning that test drivers are named but not built. -/
def testsNotBuilt : Notice :=
  .warn ("Did you forget to use the option '--test build'?\n" ++
    "You must use the option '--test build' to build test drivers and the option\n" ++
    "'--test run' to run test drivers.  For example, to build the test driver for\n" ++
    "the bdlt_date component:\n\n" ++
    "$ waf build --target bdlt_date.t --test build")

/-- Whether a flag asks for warnings. -/
def isWarningFlag (flag : String) : Bool :=
  Text.startsWith flag "-W" || Text.startsWith flag "/W"

/-- What a third-party directory is told of the build. -/
def thirdPartyView (p : Plan) (unit : SourceUnit) : Datum :=
  let config := p.config
  let debugFile := if config.uplid.osType == "windows" && config.uplid.compilerType == "cl" then
      ["/Fd" ++ p.relative unit.path ++ "\\" ++ unit.name ++ ".pdb"]
    else []
  let flags (fs : List String) : Datum := .strs (fs.filter (!isWarningFlag ·) ++ debugFile)
  let name := unit.name
  .dict [("cflags", flags config.defaultFlags.cflags),
    ("cxxflags", flags config.defaultFlags.cxxflags),
    ("lib_target", .str (p.install.targetName name)),
    ("lib_install_path", .optStr (p.install.libPath name)),
    ("h_install_path", .optStr (p.install.headerPath name true "")),
    ("pc_install_path", .optStr (p.install.pcPath name)),
    ("pc_libdir", .str p.install.pcLibDir),
    ("pc_includedir", .str (p.install.pcIncludeDir name true))]

/-- Tells the third-party directories of the build. -/
def tellThirdParties (p : Plan) : Step Unit :=
  p.config.thirdParties.entries.forM fun (name, unit) =>
    Step.change fun v => v.put ("bde_thirdparty_" ++ name ++ "_config") (thirdPartyView p unit)

/-- The plan for a request. -/
def prepare (r : Request) (c : Configured) (graph : Digraph) : Step Plan := do
  let install ← selection r c graph
  let test := (r.option "test").strD
  let runsTests := test == "run" || test == "changed"
  let p : Plan := { config := c.build, install, runsTests, buildsTests := runsTests || test == "build" }
  let environment := (← get).environment.setAll c.build.customEnvs.entries
  Step.change fun v => v.put "env" (.ofTexts environment)
  if c.build.uplid.osType == "windows" then
    match (← Step.vars).value "PREFIX" with
    | .str place => Step.change fun v => v.put "PREFIX" (.str (Text.replaceChar '\\' '/' place))
    | _ => throw .absentAttribute
  if !p.buildsTests && (Text.split ',' r.targets).any (Text.endsWith · ".t") then
    Step.say testsNotBuilt
  tellThirdParties p
  return p

/-- Describes the build of a configured repository. -/
def steps (r : Request) (c : Configured) : Step Unit := do
  Step.record (.load Configure.testTool)
  if (r.option "clang_compilation_database").truthy then
    Step.record (.load "clang_compilation_database")
  Step.say (.info (← Text.format "Waf: Using %d jobs (change with -j)" (.single (r.option "jobs"))))
  let graph := c.build.releaseGraph
  let p ← prepare r c graph
  (← (graph.order : Except Failure (List String))).forM (addRelease p)

/-- A failure ends a build with its message; for a cycle, with advice too. -/
def asFatal (e : Failure) : Failure :=
  match e with
  | .cycle _ => .fatal (e.message ++ "\nUse 'waf configure --verify' to help find more problems.")
  | e => if e.isReported && !e.isSystem then .fatal e.message else e

end Describe

end BuildMeta.Build
