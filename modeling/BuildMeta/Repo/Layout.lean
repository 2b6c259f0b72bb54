import BuildMeta.Json.Document
import BuildMeta.Repo.SourceUnit

/-!
# Repository layouts

A layout says in which directories of a repository the units are found.  It is taken from a
configuration file if there is one, and otherwise chosen by the look of the repository.
-/

namespace BuildMeta

/-- The directories of a repository in which units are found.  A field holds what the configuration
file gave for it, which should be a list of texts. -/
structure Layout where
  groups : Datum := .list []
  standAlones : Datum := .list []
  thirdParties : Datum := .list []
  applications : Datum := .list []
  /-- Directories that are the roots of package groups themselves. -/
  groupRoots : Datum := .list []
deriving Repr, Inhabited

namespace Layout

/-- The fields by name. -/
def view (l : Layout) : Datum :=
  .dict [("group_dirs", l.groups), ("stand_alone_package_dirs", l.standAlones),
    ("third_party_package_dirs", l.thirdParties), ("app_package_dirs", l.applications),
    ("group_abs_dirs", l.groupRoots)]

/-- The layout with one field replaced, if there is a field of that name. -/
def setField? (l : Layout) (name : String) (value : Datum) : Option Layout :=
  match name with
  | "group_dirs" => some { l with groups := value }
  | "stand_alone_package_dirs" => some { l with standAlones := value }
  | "third_party_package_dirs" => some { l with thirdParties := value }
  | "app_package_dirs" => some { l with applications := value }
  | "group_abs_dirs" => some { l with groupRoots := value }
  | _ => none

/-- The layout as JSON. -/
def write (l : Layout) : String := Json.write l.view

/-! ## Reading configurations -/

/-- The warning about a field that does not exist. -/
def unknownField (name : String) : Notice :=
  .warn ("Invalid field in .bdelayoutconfig: " ++ name ++ ".")

/-- Takes over the fields of a configuration in turn. -/
def setFields (l : Layout) : List (String × Datum) → Logged Layout
  | [] => return l
  | (name, value) :: rest =>
    match l.setField? name value with
    | some l => l.setFields rest
    | none => do
      Logged.tell (unknownField name)
      l.setFields rest

/-- A list has no fields: its members are warned about, but one that names a field, or that cannot
be a name at all, is a mistake. -/
def warnMembers : List Datum → Logged Unit
  | [] => return
  | .list _ :: _ | .dict _ :: _ => Logged.fail .wrongType
  | name :: rest => do
    if (({} : Layout).setField? name.strD .null).isSome then Logged.fail .wrongType
    Logged.tell (unknownField name.text)
    warnMembers rest

/-- The layout that a configuration text gives. -/
def read (text : String) : Logged Layout :=
  match Json.read text with
  | .error _ => Logged.fail .absentAttribute
  | .ok (.dict fields) => ({} : Layout).setFields fields
  | .ok (.list items) => do
    warnMembers items
    return {}
  | .ok (.str s) => do
    warnMembers (s.toList.map fun c => .str c.toString)
    return {}
  | .ok _ => Logged.fail .wrongType

/-! ## Finding the layout -/

/-- The layout of a repository whose root is a package group. -/
def singleGroup : Layout := { groupRoots := .strs ["."] }

/-- The layout of a repository that keeps its units below the directory `src`. -/
def sourceTree : Layout where
  groups := .strs ["src/groups", "src/enterprise", "src/wrappers"]
  applications := .strs ["src/applications"]
  standAlones := .strs ["src/adapters", "src/standalones"]
  thirdParties := .strs ["src/third-party"]

/-- The layout of a repository that keeps its units below its root. -/
def plain : Layout where
  groups := .strs ["groups", "enterprise", "wrappers"]
  applications := .strs ["applications"]
  standAlones := .strs ["adapters", "standalones"]
  thirdParties := .strs ["thirdparty", "third-party"]

/-- The layout of a repository, and the configuration file it was taken from. -/
def find (tree : FileTree) (root : String) : Logged (Layout × Option String) := do
  let config := Path.join root ".bdelayoutconfig"
  if tree.isFile config then
    return (← read (← tree.read config), some config)
  else if SourceUnit.isGroupPath tree root then return (singleGroup, none)
  else if tree.isDir (Path.join root "src") then return (sourceTree, none)
  else return (plain, none)

end Layout

end BuildMeta
