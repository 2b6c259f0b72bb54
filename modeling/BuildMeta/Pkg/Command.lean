import BuildMeta.CommandLine.Parse
import BuildMeta.Pkg.Query

/-!
# The command that answers package queries
-/

namespace BuildMeta.Pkg.Command

open CommandLine

/-- The version of the command, and the version of the tool that it stands in for. -/
def versions : String × String := ("1.1.0", "0.26")

/-- A switch that turns something on. -/
def turnOn (name help : String) : Switch :=
  { names := [name], action := .flag true, start := some (.bool false), help }

/-- A switch that takes a text, and is off without one. -/
def asks (name help : String) : Switch := { names := [name], start := some (.bool false), help }

/-- The switches that only Windows has. -/
def windowsSwitches : List Switch :=
  [turnOn "--dont-define-prefix"
      ("Don't try to override the value of prefix for each .pc file found with a guestimated " ++
        "value based on the location of the .pc file."),
    { names := ["--prefix-variable"], start := some (.str "prefix")
      help := "Set the name of the variable that pkg-config automatically sets when defining " ++
        "the prefix." },
    turnOn "--msvc-syntax" "Output linker flags in the Microsoft compiler (cl) format",
    { names := ["--no-msvc-syntax"], action := .flag false, target := some "msvc_syntax"
      help := "Do not output linker flags in the Microsoft compiler (cl) format" }]

/-- The command line of the command. -/
def program (windows : Bool) : Program :=
  { name := "pykg-config.py"
    usage := "pykg-config.py [options] package_spec_list\n" ++
      "Return metainformation about installed libraries."
    switches :=
      [versionSwitch versions.2, helpSwitch,
        turnOn "--realversion" "Get the pykg-config version. [Default: %default]",
        turnOn "--modversion" "Output version for package",
        { names := ["--atleast-pkgconfig-version"], start := some (.str "")
          help := "Require given version of pkg-config" },
        turnOn "--libs" "Output all linker flags",
        turnOn "--static" "Output linker flags for static linking",
        turnOn "--short-errors" "Print short errors",
        turnOn "--libs-only-l" "Output -l flags",
        turnOn "--libs-only-other" "Output other libs (e.g. -pthread)",
        { turnOn "--libs-only-L" "Output -L flags" with target := some "libs_only_big_l" },
        turnOn "--cflags" "Output all pre-processor and compiler flags",
        { turnOn "--cflags-only-I" "Output -I flags" with target := some "cflags_only_big_i" },
        turnOn "--cflags-only-other" "Output cflags not covered by --cflags-only-I",
        asks "--variable" "Get the value of a variable",
        { names := ["--define-variable"], action := .collect
          help := "Set the value of a variable" },
        turnOn "--exists" "Return 0 if the module(s) exist",
        turnOn "--uninstalled"
          ("Return 0 if the uninstalled version of one or more modules or their dependencies " ++
            "will be used"),
        asks "--atleast-version" "Return 0 if the module is at least the given version",
        asks "--exact-version" "Return 0 if the module is exactly the given version",
        asks "--max-version" "Return 0 if the module is no newer than the given version",
        turnOn "--list-all" "List all known packages",
        turnOn "--debug" "Show verbose debug information",
        turnOn "--print-errors"
          "Show verbose information about missing or conflicting packages",
        turnOn "--silence-errors"
          "Don't show verbose information about missing or conflicting packages",
        turnOn "--errors-to-stdout" "Print errors from --print-errors to stdout",
        turnOn "--dump-package" "Print the parsed package information and exit.",
        turnOn "--normalise-paths"
          "Normalise paths to use the correct slash for your platform. [Default: %default]"] ++
      (if windows then windowsSwitches else []) ++
      [{ names := ["--full-compatibility"], action := .flag true, start := some (.bool !windows)
         help := "Enable full-compatibility mode. [Default: %default]" },
        { names := ["--less-compatibility"], action := .flag false
          target := some "full_compatibility"
          help := "Disable full-compatibility mode. [Default: %default]" }] }

/-- Where the command runs. -/
structure Place where
  tree : FileTree
  windows : Bool := false
  path : SearchPath
  /-- Whether the directories of 64 bit libraries are used. -/
  wide : Bool := false
deriving Inhabited

/-- Whether the archive of the runtime is found in a directory for 64 bit libraries. -/
def isWide (archive : String) (modulePath : List String) : Bool :=
  modulePath.any (Text.endsWith · ("64/" ++ archive))

/-! ## From switches to settings -/

/-- The switches whose queries print errors unless they are silenced. -/
def printing : List String :=
  ["modversion", "libs", "libs_only_l", "libs_only_big_l", "libs_only_other", "cflags",
    "cflags_only_big_i", "cflags_only_other", "list_all"]

/-- The settings that a command line makes in an environment. -/
def settings (place : Place) (options : Table Datum) : Settings :=
  let env name := place.path.environment.getD name ""
  let on name := (options.getD name .null).truthy
  let quiet := if printing.any on then on "silence_errors" else !on "print_errors"
  let libDir := if place.wide then "/usr/lib64" else "/usr/lib"
  let dirs := (if place.windows then [] else ["/usr/include"]) ++
    (["C_INCLUDE_PATH", "CPLUS_INCLUDE_PATH"].map env).filter (· != "")
  let s := Settings.initial
    |>.set "is_64bit" (.bool place.wide)
    |>.set "prefer_uninstalled" (.bool (env "PKG_CONFIG_DISABLE_UNINSTALLED" == ""))
    |>.set "forbidden_libdirs"
      (.strs (if env "PKG_CONFIG_ALLOW_SYSTEM_LIBS" == "" then [libDir] else []))
    |>.set "forbidden_cflags"
      (.strs (if env "PKG_CONFIG_ALLOW_SYSTEM_CFLAGS" == "" then dirs else []))
    |>.set "full_compatibility" (.bool (on "full_compatibility"))
    |>.set "private_libs" (.bool (on "static"))
    |>.set "short_errors" (.bool (on "short_errors"))
    |>.set "debug" (.bool (on "debug"))
    |>.set "normalise_paths" (.bool (on "normalise_paths"))
    |>.set "print_errors" (.bool !quiet)
  let s := if !place.windows then s else
    let s := s.set "dont_define_prefix" (.bool (on "dont_define_prefix"))
      |>.set "use_msvc_syntax" (.bool (on "msvc_syntax"))
    if on "prefix_variable" then s.set "prefix_variable" (options.getD "prefix_variable" .null)
    else s
  { s with channel := if on "errors_to_stdout" then .out else .err }

/-- The global variables that the environment sets. -/
def environmentGlobals (environment : Table String) : Table String :=
  [("PKG_CONFIG_SYSROOT_DIR", "pc_sysrootdir"), ("PKG_CONFIG_TOP_BUILD_DIR", "pc_topbuilddir")].foldl
    (fun t (name, key) =>
      match environment.getD name "" with
      | "" => t
      | value => t.set key value) ∅

/-- Adds a definition `name=value` to the global variables. -/
def define (globals : Table String) (definition : String) : Except Failure (Table String) :=
  match Text.split '=' definition with
  | [name, value] => .ok (globals.set name value)
  | _ => .error .outOfRange

/-! ## Running -/

/-- Prints a line. -/
def printLine (text : String) : Logged Unit := .tell (.out (text ++ "\n"))

/-- Lists all packages in two columns, then the problems met. -/
def listAll (s : Settings) (entries : List Search.Entry) : Logged Unit := do
  let keys := entries.filterMap fun
    | .package key _ _ => some key.length
    | .problem _ => none
  let width := (keys.max?.getD 0) + 1
  entries.forM fun
    | .package key name description =>
      printLine (Text.padRight width key ++ name ++ " - " ++ description)
    | .problem _ => pure ()
  entries.forM fun
    | .package .. => pure ()
    | .problem text => s.say text

/-- Tells the user why packages were not found. -/
def explain (s : Settings) (e : Failure) : Logged Unit := do
  match e with
  | .packageUnreadable _ => s.complain e.message
  | .packageNotFound name =>
    unless s.isOn "short_errors" do
      s.complain ("Package " ++ name ++ " was not found in the pkg-config search path.\n" ++
        "Perhaps you should add the directory containing `" ++ name ++ ".pc'\n" ++
        "to the PKG_CONFIG_PATH environment variable")
    s.complain e.message
  | .noPackages => s.say "Must specify package names on the command line"
  | .undefinedVariable name file => s.say (Search.undefinedText name (file.getD "None"))
  | _ =>
    printLine "Exception searching for packages"
    .tell (.fault e)

/-- Ends the command by whether a version stands in a relation to a given one. -/
def judged (s : Settings) (found : Version) (relation : Relation) (text : String) :
    Logged Nat := do
  let given ← s.readVersion text
  return if relation.accepts (← found.compare given) then 0 else 1

/-- Answers a query whose packages have been found. -/
def answer (s : Settings) (options : Table Datum) (q : Query) : Logged Nat := do
  let on name := (options.getD name .null).truthy
  let text name := (options.getD name .null).strD
  if on "dump_package" then
    q.dump
    return 0
  if on "exists" then return 0
  if on "uninstalled" then return if q.hasUninstalled then 0 else 1
  if on "modversion" then
    (← q.askedVersions).forM fun v => printLine v.raw
  let found := ((← q.askedVersions).head?).getD Version.none
  if on "atleast_version" then return ← judged s found .greaterOrEqual (text "atleast_version")
  if on "exact_version" then return ← judged s found .equal (text "exact_version")
  if on "max_version" then return ← judged s found .lessOrEqual (text "max_version")
  if on "variable" then printLine ((← q.variableValue).getD "")
  if on "cflags_only_big_i" then printLine q.includeDirs
  if on "cflags_only_other" then printLine q.otherCompile
  if on "cflags" then printLine q.compileFlags
  if on "libs_only_l" then printLine q.libs
  if on "libs_only_big_l" then printLine q.libPaths
  if on "libs_only_other" then printLine q.otherLink
  if on "libs" then printLine q.linkFlags
  return 0

/-- Runs the command. -/
def run (place : Place) (words : List String) : Logged Nat := do
  let line ← (program place.windows).parse words
  let options := line.values
  let on name := (options.getD name .null).truthy
  if on "realversion" then
    printLine (versions.1 ++ " (Equivalent to " ++ versions.2)
    return 0
  if on "atleast_pkgconfig_version" then
    let asked := Version.parse (options.getD "atleast_pkgconfig_version" .null).strD
    return if (← asked.compare (Version.parse versions.2)) == .gt then 1 else 0
  let globals ← ((options.getD "define_variable" .null).texts.foldlM define
    (environmentGlobals place.path.environment) : Except Failure _)
  let s := settings place options
  let site : Site := { tree := place.tree, windows := place.windows, settings := s, globals }
  if on "list_all" then
    match ← (do (← Search.start site place.path).list).attempt with
    | .ok entries =>
      listAll s entries
      return 0
    | .error e =>
      s.say "Exception searching for packages:"
      .tell (.fault e)
      return 1
  let found ← (do
    let search ← Search.start site place.path
    let (q, x) := Query.find { search } (Text.join " " line.words) true
    x
    return q : Logged Query).attempt
  match found with
  | .ok q => answer s options q
  | .error e =>
    explain s e
    return 1

end BuildMeta.Pkg.Command
