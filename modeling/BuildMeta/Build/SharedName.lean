import BuildMeta.Build.Session
import BuildMeta.Path

/-!
# Versioned names of shared libraries

A shared library with a version is linked under a name that holds the version, and links with
shorter names lead to it.
-/

namespace BuildMeta.Build

/-- A shared library as it is linked. -/
structure SharedLibrary where
  /-- The name of the file that is linked. -/
  file : String
  /-- The numbers of the version; there may be none. -/
  version : Datum := .null
  /-- The name by which programs look for the library, if it does not follow from the version. -/
  soname : Datum := .null
  /-- Where the generator says that the library is installed, if it says anything. -/
  place : Option (Option String) := none
  /-- The directory of a planned installation. -/
  destination : Option String := none
deriving Repr, Inhabited

/-- A task that versioned names give rise to. -/
inductive NameTask where
  /-- The file is linked to under other names in the build directory. -/
  | name (file : String) (names : List String)
  /-- The file is installed under a path. -/
  | install (path file : String)
  /-- A link is installed under a path. -/
  | link (path target : String)
deriving Repr, BEq, DecidableEq, Inhabited

/-- The mode of an installed library: all may read and run it. -/
def libraryMode : Nat := 493

/-- A task by its kind and arguments. -/
def NameTask.view : NameTask → Datum
  | name file names => .list [.str "task", .str "vnum", .str file, .strs names]
  | install path file => .list [.str "install_as", .str path, .str file, .int libraryMode]
  | link path target => .strs ["symlink_as", path, target]

namespace SharedLibrary

/-- The ending of a shared library on some systems, before which the version stands. -/
def ending : String := ".dylib"

/-- The name of the file with a version. -/
def versioned (file version : String) : String :=
  if Text.endsWith file ending then Text.replace file ending ("." ++ version ++ ending)
  else file ++ "." ++ version

/-- Replaces references to variables, with blanks between the words of a list. -/
def expandFrom (v : Variables) : Nat → List Char → List Char
  | _, [] => []
  | skip + 1, _ :: rest => expandFrom v skip rest
  | 0, '$' :: '\x7b' :: rest =>
    let name := rest.takeWhile (· != '\x7d')
    if name.isEmpty || name.length == rest.length then '$' :: '\x7b' :: expandFrom v 0 rest
    else
      let value := match v.value (String.ofList name) with
        | .list xs => Text.join " " (xs.map Datum.text)
        | d => d.text
      value.toList ++ expandFrom v (name.length + 1) rest
  | 0, c :: rest => c :: expandFrom v 0 rest

/-- A path with references to variables replaced. -/
def expand (v : Variables) (path : String) : String := String.ofList (expandFrom v 0 path.toList)

/-- The tasks that install a library under its names. -/
def installTasks (l : SharedLibrary) (system : String) (short full : String) : List NameTask :=
  match l.destination with
  | none => []
  | some dir =>
    if system == "openbsd" then [.install (dir ++ "/" ++ l.file) l.file]
    else [.install (dir ++ "/" ++ full) l.file, .link (dir ++ "/" ++ short) full,
      .link (dir ++ "/" ++ l.file) full]

/-- Whether a library gets versioned names. -/
def isVersioned (l : SharedLibrary) (v : Variables) : Bool :=
  l.version.truthy && ["elf", "mac-o"].contains (v.value "DEST_BINFMT").strD

/-- The variables and tasks for the versioned names of a library. -/
def nameVersions (l : SharedLibrary) (v : Variables) : Except Failure (Variables × List NameTask) := do
  if !l.isVersioned v then return (v, [])
  let numbers ← l.version.needTexts
  match numbers with
  | major :: minor :: _ =>
    let short := versioned l.file (major ++ "." ++ minor)
    let full := versioned l.file (Text.join "." numbers)
    let mut v := v
    if (v.value "SONAME_ST").truthy then
      let name := if l.soname.truthy then l.soname else .str short
      let flag ← v.fill "SONAME_ST" name
      v := v.append "LINKFLAGS" (Text.words flag)
    let system := v.text "DEST_OS"
    let tasks := (if system == "openbsd" then [] else [.name l.file [short, full]]) ++
      l.installTasks system short full
    if ← (v.value "LINKFLAGS").holdsText "-dynamiclib" then
      match (l.place.getD (some "$\x7bLIBDIR\x7d")).filter (· != "") with
      | some place =>
        v := v.append "LINKFLAGS" ["-install_name", Path.join (expand v place) l.file]
      | none => pure ()
    return (v, tasks)
  | _ => throw .outOfRange

end SharedLibrary

end BuildMeta.Build
