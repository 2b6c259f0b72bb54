import BuildMeta.Repo.Component
import BuildMeta.Repo.Listing
import BuildMeta.Rule.Reader

/-!
# Units of a repository

A unit is a package, a package group or a third-party directory.  Groups, packages outside groups
and third-party directories are units of release; packages inside a group are inner packages.
-/

namespace BuildMeta

/-- The kind of a unit. -/
inductive UnitKind where
  /-- A package of components inside a group. -/
  | normal
  /-- A package inside a group that is not made of components. -/
  | plus
  /-- A package outside groups. -/
  | standAlone
  /-- A package outside groups that holds an application. -/
  | application
  /-- A package group. -/
  | group
  /-- A third-party directory. -/
  | thirdParty
deriving Repr, DecidableEq, Inhabited

namespace UnitKind

/-- The number of a kind. -/
def code : UnitKind → Nat
  | normal => 0
  | plus => 1
  | standAlone => 2
  | application => 3
  | group => 4
  | thirdParty => 5

/-- All kinds in the order of their numbers. -/
def all : List UnitKind := [normal, plus, standAlone, application, group, thirdParty]

/-- The kind with a number, if it is one of a package. -/
def ofCode (n : Int) : UnitKind := (all.find? fun k => Int.ofNat k.code == n).getD normal

/-- Whether units of this kind are units of release. -/
def isRelease : UnitKind → Bool
  | standAlone | application | group | thirdParty => true
  | normal | plus => false

/-- Whether units of this kind are packages. -/
def isPackage : UnitKind → Bool
  | normal | plus | standAlone | application => true
  | group | thirdParty => false

/-- Whether units of this kind belong to a group. -/
def isInner : UnitKind → Bool
  | normal | plus => true
  | _ => false

end UnitKind

/-- What the documentation of a unit says of it. -/
structure UnitDoc where
  mnemonic : String
  description : String
deriving Repr, BEq, DecidableEq, Inhabited

/-- The version of a unit of release. -/
structure ReleaseVersion where
  major : String
  minor : String
  patch : String
deriving Repr, BEq, DecidableEq, Inhabited

/-- The files of a package that is not made of components. -/
structure PlusFiles where
  headers : List String := []
  cppSources : List String := []
  cppTests : List String := []
  cTests : List String := []
deriving Repr, BEq, DecidableEq, Inhabited

/-- A unit of a repository.  Sets of names are kept in code point order. -/
structure SourceUnit where
  name : String
  path : String
  kind : UnitKind
  members : List String := []
  deps : List String := []
  opts : List Rule := []
  defs : List Rule := []
  cap : List Rule := []
  doc : Option UnitDoc := none
  version : Option ReleaseVersion := none
  /-- The headers that a package makes public; without it they all are. -/
  pub : Option (List String) := none
  /-- Whether symbols are to be dummied out. -/
  hasDums : Bool := false
  components : List Component := []
  /-- The file of an application's main function, without its extension. -/
  appMain : Option String := none
  plusFiles : Option PlusFiles := none
deriving Repr, BEq, DecidableEq, Inhabited

/-! ## Views -/

/-- The documentation by name. -/
def UnitDoc.view (d : UnitDoc) : Datum :=
  .dict [("mnemonic", .str d.mnemonic), ("description", .str d.description)]

/-- The three parts of a version. -/
def ReleaseVersion.view (v : ReleaseVersion) : Datum := .strs [v.major, v.minor, v.patch]

/-- The version with dots between its parts. -/
def ReleaseVersion.dotted (v : ReleaseVersion) : String := Text.join "." [v.major, v.minor, v.patch]

/-- The files by name. -/
def PlusFiles.view (f : PlusFiles) : Datum :=
  .dict [("headers", .strs f.headers), ("cpp_sources", .strs f.cppSources),
    ("cpp_tests", .strs f.cppTests), ("c_tests", .strs f.cTests)]

namespace SourceUnit

/-- The parts of a unit by name; each kind has its own. -/
def view (u : SourceUnit) : Datum :=
  let rules (rs : List Rule) : Datum := .list (rs.map Rule.view)
  let base : List (String × Datum) :=
    [("name", .str u.name), ("path", .str u.path), ("type", .int u.kind.code),
      ("doc", (u.doc.map UnitDoc.view).getD .null),
      ("version", (u.version.map ReleaseVersion.view).getD .null)]
  let ruled : List (String × Datum) :=
    [("mem", .strs u.members), ("dep", .strs u.deps), ("opts", rules u.opts),
      ("defs", rules u.defs), ("cap", rules u.cap)]
  match u.kind with
  | .thirdParty => .dict base
  | .group => .dict (base ++ ruled)
  | _ => .dict (base ++ ruled ++
      [("pub", (u.pub.map Datum.strs).getD .null), ("has_dums", .bool u.hasDums),
        ("components", .list (u.components.map Component.view)),
        ("app_main", .optStr u.appMain),
        ("pt_extras", (u.plusFiles.map PlusFiles.view).getD .null)])

/-! ## Places -/

/-- Whether a directory is the root of a package group. -/
def isGroupPath (tree : FileTree) (path : String) : Bool :=
  tree.isFile (Path.joinAll path ["group", Path.baseName path ++ ".mem"])

/-- Whether a directory is the root of a package. -/
def isPackagePath (tree : FileTree) (path : String) : Bool :=
  tree.isFile (Path.joinAll path ["package", Path.baseName path ++ ".mem"])

/-- Whether a directory is a third-party directory. -/
def isThirdPartyPath (tree : FileTree) (path : String) : Bool :=
  tree.isFile (Path.join path "wscript")

/-- Whether a directory of a workspace is the root of a repository: its name does not start with
an underscore and is no part of the word `build`. -/
def isRepositoryPath (path : String) : Bool :=
  let name := Path.baseName path
  !Text.startsWith name "_" && !Text.contains "build" name

/-! ## Loading -/

/-- The rules in a file, if there is one. -/
def loadRules (tree : FileTree) (verbose : Bool) (path : String) : Logged (List Rule) := do
  if tree.isFile path then Rule.ofFile path (← tree.read path) verbose else return []

/-- Loads what groups and packages have in common, from the files of the directory `place` inside
the unit. -/
def loadCommon (tree : FileTree) (verbose : Bool) (path place : String) (kind : UnitKind) :
    Logged SourceUnit := do
  let name := Path.baseName path
  let file (ending : String) : String := Path.joinAll path [place, name ++ ending]
  return {
    name, path, kind
    members := Listing.loadSet tree (file ".mem")
    deps := Listing.loadSet tree (file ".dep")
    opts := ← loadRules tree verbose (file ".opts")
    defs := ← loadRules tree verbose (file ".defs")
    cap := ← loadRules tree verbose (file ".cap") }

/-- Loads a package group. -/
def loadGroup (tree : FileTree) (verbose : Bool) (path : String) : Logged SourceUnit :=
  loadCommon tree verbose path "group" .group

/-- The files of a package that is not made of components.  Its public headers are those listed. -/
def loadPlusFiles (tree : FileTree) (path : String) (pub : Option (List String)) : PlusFiles where
  headers := pub.getD []
  cppSources := tree.listEnding path ".cpp"
  cppTests := (tree.listEnding (Path.join path "test") ".cpp").map ("test/" ++ ·)
  cTests := (tree.listEnding (Path.join path "test") ".c").map ("test/" ++ ·)

/-- The name of the main file of an application, without its extension: the name of the package,
or what follows `m_` in it. -/
def findMain (tree : FileTree) (path name : String) : Except Failure String :=
  let candidates := name :: if Text.startsWith name "m_" then [Text.drop 2 name] else []
  match candidates.find? (fun c => tree.isFile (Path.join path (c ++ ".m.cpp"))) with
  | some "" => .error (.missingMain (Path.join path (name ++ ".m.cpp")) name)
  | some main => .ok main
  | none => .error (.missingMain (Path.join path (name ++ ".m.cpp")) name)

/-- Loads a package. -/
def loadPackage (tree : FileTree) (verbose : Bool) (path : String) (kind : UnitKind) :
    Logged SourceUnit := do
  let unit ← loadCommon tree verbose path "package" kind
  let file (ending : String) : String := Path.joinAll path ["package", unit.name ++ ending]
  let pub := if tree.isFile (file ".pub") then some (Listing.loadSet tree (file ".pub")) else none
  let unit := { unit with pub, hasDums := tree.isFile (file ".dums") }
  if kind == .plus then
    return { unit with plusFiles := some (loadPlusFiles tree path pub) }
  let appMain ←
    if kind == .application then (findMain tree path unit.name).map some else pure none
  let components ← (unit.members.mapM (Component.load tree path) : Except Failure _)
  return { unit with appMain, components }

end SourceUnit

end BuildMeta
