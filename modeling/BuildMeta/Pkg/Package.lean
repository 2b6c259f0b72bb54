import BuildMeta.FileTree
import BuildMeta.Pkg.Contents
import BuildMeta.Text.ShellWords

/-!
# Packages

A package is what a package file says, with requirements read and flags sorted by kind.
-/

namespace BuildMeta.Pkg

/-- Where packages are read: the files, the settings and the global variables. -/
structure Site where
  tree : FileTree
  windows : Bool := false
  settings : Settings := .initial
  globals : Table String := ∅
deriving Inhabited

/-- Flags for linking, by kind. -/
structure LinkFlags where
  libs : List String := []
  paths : List String := []
  others : List String := []
deriving Repr, BEq, DecidableEq, Inhabited

/-- Flags for compiling, by kind. -/
structure CompileFlags where
  includeDirs : List String := []
  others : List String := []
deriving Repr, BEq, DecidableEq, Inhabited

/-- A package. -/
structure Package where
  path : String
  rawVariables : Table String
  vars : Table String
  rawProperties : Table String
  name : String
  description : String
  version : Version
  requires : List Requirement
  /-- All requirements, the private ones first. -/
  allRequires : List Requirement
  conflicts : List Requirement
  compile : CompileFlags
  link : LinkFlags
  privateLink : LinkFlags
deriving Repr, Inhabited

/-! ## Flags -/

namespace Site

/-- The suffix of libraries. -/
def libSuffix (s : Site) : String :=
  if s.windows && s.settings.isOn "use_msvc_syntax" then ".lib" else ""

/-- A directory below the system root, if there is one. -/
def rooted (s : Site) (dir : String) : Except Failure String := do
  let root := s.settings.value "pc_sysrootdir"
  if !root.truthy then return Text.trim dir
  return Path.join (← root.needText) (Text.trim dir)

/-- A directory as Windows wants it. -/
def nativeDir (s : Site) (dir : String) : String :=
  if !s.windows then dir
  else if s.settings.isOn "normalise_paths" then Path.normalize dir
  else Text.replaceChar '\\' '/' dir

/-- The first word of a directory. -/
def firstWord (dir : String) : Except Failure String :=
  match Text.words dir with
  | [] => .error .outOfRange
  | word :: _ => .ok word

/-- The directory of a flag; in full compatibility it ends at its first blank. -/
def dirOf (s : Site) (dir : String) (emptyAllowed : Bool) : Except Failure String := do
  let dir ← s.rooted dir
  let dir ← if s.settings.isOn "full_compatibility" && !(emptyAllowed && dir == "")
    then firstWord dir else pure dir
  return s.nativeDir dir

/-- Sorts one flag for compiling. -/
def addCompileFlag (s : Site) (flags : CompileFlags) (flag : String) :
    Except Failure CompileFlags := do
  if Text.startsWith flag "-I" then
    let dir := Text.drop 2 flag
    if ← (s.settings.value "forbidden_cflags").holdsText dir then return flags
    return { flags with includeDirs := flags.includeDirs ++ [← s.dirOf dir true] }
  return { flags with others := flags.others ++ [Text.trim flag] }

/-- Sorts flags for compiling. -/
def compileFlags (s : Site) (text : String) : Except Failure CompileFlags := do
  (← Text.plainWords text).foldlM s.addCompileFlag {}

/-- Sorts flags for linking; the name of a framework follows its flag. -/
def linkFlagsFrom (s : Site) (flags : LinkFlags) : List String → Except Failure LinkFlags
  | [] => .ok flags
  | flag :: rest =>
    if Text.startsWith flag "-l" then
      s.linkFlagsFrom
        { flags with libs := flags.libs ++ [Text.trim (Text.drop 2 flag) ++ s.libSuffix] } rest
    else if Text.startsWith flag "-L" then do
      let dir := Text.drop 2 flag
      if ← (s.settings.value "forbidden_libdirs").holdsText dir then s.linkFlagsFrom flags rest
      else s.linkFlagsFrom { flags with paths := flags.paths ++ [← s.dirOf dir false] } rest
    else if Text.startsWith flag "-framework" then
      match rest with
      | [] => .error .outOfRange
      | name :: rest =>
        s.linkFlagsFrom { flags with others := flags.others ++ [Text.trim name ++ s.libSuffix] } rest
    else
      s.linkFlagsFrom { flags with others := flags.others ++ [Text.trim flag ++ s.libSuffix] } rest

/-- Sorts flags for linking. -/
def linkFlags (s : Site) (text : String) : Except Failure LinkFlags := do
  s.linkFlagsFrom {} (← Text.shellWords text)

end Site

/-! ## Reading -/

namespace Package

/-- The end of a directory that holds package files on Windows. -/
def windowsPlace : String := "\\lib\\pkgconfig"

/-- The directory above the place of a package file on Windows: all characters of the place's name
are cut off the end of the path. -/
def windowsPrefix? (s : Site) (path : String) : Option String :=
  let dir := Path.dirName (Path.normalize path)
  let dir := if s.settings.isOn "normalise_paths" then Path.normalize dir
    else Text.replaceChar '\\' '/' dir
  if Text.endsWith dir windowsPlace then
    some (String.ofList (Text.trimEndWhile windowsPlace.toList.contains dir.toList))
  else none

/-- The variables of a package, after Windows has set the one for its directory. -/
def placedVariables (s : Site) (path : String) (vars : Table String) :
    Logged (Table String) := do
  if !s.windows || s.settings.isOn "dont_define_prefix" then return vars
  match windowsPrefix? s path with
  | none => return vars
  | some dir =>
    let name := s.settings.text "prefix_variable"
    s.settings.debug ("Replaced " ++ name ++ " with " ++ dir)
    return vars.set name dir

/-- The package that contents describe. -/
def ofContents (s : Site) (path : String) (c : Contents) : Logged Package := do
  let vars ← placedVariables s path c.vars
  let entries ← c.properties.entries.mapM fun (name, text) =>
    (do return (name, ← substitute text vars s.globals) : Except Failure _)
  let properties := Table.ofList entries
  let property name := properties.getD name ""
  let version ← if property "version" == "" then pure Version.none
    else s.settings.readVersion (property "version")
  let requires ← s.settings.readRequirements (property "requires")
  let inner ← s.settings.readRequirements (property "requires.private")
  let conflicts ← s.settings.readRequirements (property "conflicts")
  return {
    path, rawVariables := c.rawVariables, vars, rawProperties := properties
    name := property "name"
    description := if property "description" == "" then "No description"
      else property "description"
    version, requires, allRequires := inner ++ requires, conflicts
    compile := ← s.compileFlags (property "cflags")
    link := ← s.linkFlags (property "libs")
    privateLink := ← s.linkFlags (property "libs.private") }

/-- Loads the package at a path. -/
def load (s : Site) (path : String) : Logged Package := do
  s.settings.debug ("Parsing " ++ path)
  let lines := Text.fullLines (← s.tree.read path).toList
  if lines.isEmpty then .fail (.emptyPackageFile path)
  ofContents s path (← Contents.ofLines s.settings (some path) s.globals (lines.map String.ofList))

/-- Whether a package was built but not installed. -/
def isUninstalled (p : Package) : Bool := Text.endsWith p.path "-uninstalled"

/-! ## Showing -/

/-- The properties of a package in order; requirements are shown by a function. -/
def properties (p : Package) (showAll : List Requirement → Datum) : List (String × Datum) :=
  [("name", .str p.name), ("description", .str p.description), ("url", .str ""),
    ("version", p.version.view), ("requires", showAll p.requires),
    ("requires.private", showAll p.allRequires), ("conflicts", showAll p.conflicts),
    ("include_dirs", .strs p.compile.includeDirs), ("other_cflags", .strs p.compile.others),
    ("libs", .strs p.link.libs), ("libpaths", .strs p.link.paths),
    ("otherlibs", .strs p.link.others), ("private.libs", .strs p.privateLink.libs),
    ("private.libpaths", .strs p.privateLink.paths),
    ("private.otherlibs", .strs p.privateLink.others)]

/-- Everything about a package by name; requirements are shown by a function. -/
def view (p : Package) (showAll : List Requirement → Datum) : List (String × Datum) :=
  [("properties", .dict (p.properties showAll)), ("variables", .ofTexts p.vars),
    ("raw_vars", .ofTexts p.rawVariables), ("raw_props", .ofTexts p.rawProperties),
    ("uninstalled", .bool p.isUninstalled)]

/-- The text of requirements in a list. -/
def requirementTexts (rs : List Requirement) : Except Failure Datum := do
  return .strs (← rs.mapM Requirement.render)

/-- The text that shows a package. -/
def render (p : Package) : Except Failure String := do
  let requires ← requirementTexts p.requires
  let all ← requirementTexts p.allRequires
  let conflicts ← requirementTexts p.conflicts
  let shown := (p.properties fun _ => .null).map fun (key, value) =>
    match key with
    | "version" => (key, p.version.raw)
    | "requires" => (key, requires.text)
    | "requires.private" => (key, all.text)
    | "conflicts" => (key, conflicts.text)
    | _ => (key, value.text)
  let line : String × String → String := fun (key, value) => key ++ ":\t" ++ value ++ "\n"
  return p.path ++ "\nProperties:\n" ++ String.join (shown.map line) ++ "Variables:\n" ++
    String.join (p.vars.entries.map line)

end Package

end BuildMeta.Pkg
