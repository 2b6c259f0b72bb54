import BuildMeta.Pkg.Package

/-!
# Finding packages

Package files are found in the directories of a search path.  Of several files for a name those
found first are preferred; the first whose version meets a requirement is taken.
-/

namespace BuildMeta.Pkg

/-- The package files that were found: for every name the paths in the order of preference. -/
structure Search where
  site : Site
  known : Table (List String) := ∅
deriving Inhabited

/-- Where package files are looked for. -/
structure SearchPath where
  environment : Table String
  /-- The directory under which the tools are installed. -/
  toolPrefix : String
  /-- A path that takes the place of the directories of the tools. -/
  configured : Option String := none
deriving Repr, Inhabited

namespace Search

/-- Adds one file of a directory. -/
def addFile (s : Search) (dir file : String) : Logged Search := do
  if !Text.endsWith file ".pc" then return s
  let path := Path.join dir file
  let name := Text.dropEnd 3 file
  match s.known.get? name with
  | none => return { s with known := s.known.set name [path] }
  | some paths =>
    if paths.contains path then return s
    let paths := paths ++ [path]
    s.site.settings.debug ("Package " ++ name ++ " has a duplicate file: " ++
      (Datum.strs paths).repr)
    return { s with known := s.known.set name paths }

/-- Adds the files of a directory, if it is one. -/
def addDir (s : Search) (dir : String) : Logged Search := do
  if dir == "" || !s.site.tree.isDir dir then return s
  s.site.settings.debug ("Adding .pc files from " ++ dir ++ " to known packages")
  (s.site.tree.list dir).foldlM (fun s file => s.addFile dir file) s

/-- Adds the files of the directories of a path. -/
def addPath (s : Search) (path : String) : Logged Search :=
  if path == "" then pure s
  else (Text.split (if s.site.windows then ';' else ':') path).foldlM addDir s

/-- The directories of the tools. -/
def toolDirs (s : Search) (toolPrefix : String) : List String :=
  let suffix := if s.site.settings.isOn "is_64bit" then "64" else ""
  [Path.join toolPrefix ("lib" ++ suffix ++ "/pkgconfig"), Path.join toolPrefix "share/pkgconfig"]

/-- Finds the package files of a search path.  On Windows a search cannot be finished. -/
def start (site : Site) (path : SearchPath) : Logged Search := do
  let s ← addPath { site } (path.environment.getD "PKG_CONFIG_PATH" "")
  let s ← s.addPath (path.environment.getD "PKG_CONFIG_LIBDIR" "")
  if site.windows then .fail .undefinedName
  match path.configured.filter (· != "") with
  | some configured => s.addPath configured
  | none => (s.toolDirs path.toolPrefix).foldlM addDir s

/-- The files for a name; those of a package that is not installed are preferred, if wanted. -/
def filesFor (s : Search) (name : String) : Logged (List String) := do
  let settings := s.site.settings
  settings.debug ("Looking for files matching " ++ name)
  if settings.isOn "prefer_uninstalled" then
    match s.known.get? (name ++ "-uninstalled") with
    | some paths =>
      settings.debug ("Using uninstalled package " ++ (Datum.strs paths).repr)
      return paths
    | none =>
      if settings.isOn "uninstalled_only" then
        settings.debug "Uninstalled only, no suitable package."
        return []
  match s.known.get? name with
  | some paths =>
    settings.debug ("Using any package: " ++ (Datum.strs paths).repr)
    return paths
  | none =>
    settings.debug "No suitable package found"
    return []

/-- Tells that a file cannot be opened. -/
def notOpened (s : Settings) (path reason : String) : Logged Unit :=
  s.complain ("Failed to open '" ++ path ++ "': " ++ reason)

/-- Loads the packages at some paths.  Files that cannot be opened are passed over. -/
def loadAll (s : Search) (paths : List String) : Logged (List Package) := do
  let loaded ← paths.mapM fun path => do
    match ← (Package.load s.site path).attempt with
    | .ok p => return some p
    | .error (.undefinedVariable name _) => .fail (.undefinedVariable name (some path))
    | .error e =>
      match e.systemText? with
      | some reason =>
        notOpened s.site.settings path reason
        return none
      | none => .fail e
  return loaded.filterMap id

/-- The paths to look at for a requirement.  The path of a package file stands for itself. -/
def pathsFor (s : Search) (r : Requirement) : Logged (List String) := do
  let settings := s.site.settings
  if s.site.tree.isFile r.name && Path.extension r.name == ".pc" then
    settings.debug ("Using provided pc file " ++ r.name)
    return [r.name]
  if settings.isOn "debug" then
    settings.debug ("Searching for package matching " ++ (← r.render))
  s.filesFor r.name

/-- Of some packages, the first that meets a requirement. -/
def firstFitting (s : Search) (r : Requirement) (packages : List Package) : Logged Package := do
  let fitting ← (packages.filterMapM fun p => do
    return if ← r.metBy p.version then some p else none : Except Failure _)
  s.site.settings.debug ("Filtered to " ++ (Datum.strs (fitting.map (·.name))).repr)
  match fitting with
  | [] => .fail (.packageNotFound (← r.render))
  | p :: _ => return p

/-- The first package that meets a requirement. -/
def find (s : Search) (r : Requirement) : Logged Package := do
  let paths ← s.pathsFor r
  s.site.settings.debug ("Found .pc files: " ++ (Datum.strs paths).repr)
  if paths.isEmpty then .fail (.packageNotFound (← r.render))
  let packages ← s.loadAll paths
  if packages.isEmpty then .fail (.packageUnreadable (← r.render))
  s.firstFitting r packages

/-- What a package file that refers to an unknown variable is told. -/
def undefinedText (name path : String) : String :=
  "Variable '" ++ name ++ "' not defined in '" ++ path ++ "'"

/-- An entry of the list of all packages, or what is wrong with it. -/
inductive Entry where
  | package (key name description : String)
  | problem (text : String)
deriving Repr, BEq, DecidableEq, Inhabited

/-- Lists all packages that were found.  Global variables are not looked at. -/
def list (s : Search) : Logged (List Entry) := do
  let site := { s.site with globals := ∅ }
  let entries ← s.known.entries.mapM fun (key, paths) => do
    let path := paths.headD ""
    match ← (Package.load site path).attempt with
    | .ok p => return [Entry.package key p.name p.description]
    | .error (.undefinedVariable name _) => return [.problem (undefinedText name path)]
    | .error e =>
      match e.systemText? with
      | some reason =>
        notOpened site.settings path reason
        return []
      | none => .fail e
  return entries.flatten

/-- The entries of a list as two lists: the packages, each as its key, name and description, and
the problems. -/
def sorted (entries : List Entry) : List (List String) × List String :=
  (entries.filterMap fun
      | .package key name description => some [key, name, description]
      | .problem _ => none,
    entries.filterMap fun
      | .package .. => none
      | .problem text => some text)

/-- Whether a file can be opened; if it belongs to what is searched for, a failure is told. -/
def canOpen (s : Search) (path : String) : Logged Bool := do
  match s.site.tree.read path with
  | .ok _ => return true
  | .error e =>
    let settings := s.site.settings
    settings.debug ("Could not open " ++ path)
    let words ← match settings.value "search_string" with
      | .str text => pure (Text.words text)
      | _ => Logged.fail .absentAttribute
    let stem := Text.before '.' (Path.baseName path)
    let listing ← if words.isEmpty then do
        pure ((← settings.get "command").sameAtom (.str "list-all"))
      else pure false
    if listing || words.any (Text.startsWith · stem) then
      notOpened settings path (e.systemText?.getD "")
    return false

end Search

end BuildMeta.Pkg
