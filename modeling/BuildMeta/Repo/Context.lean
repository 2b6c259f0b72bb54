import BuildMeta.Repo.Layout
import BuildMeta.Repo.Release

/-!
# Repository contexts

The units of a repository, or of a workspace of several repositories, by their names.
-/

namespace BuildMeta

/-- The units found below a root directory, each under its own name. -/
structure Context where
  root : String
  units : Table SourceUnit := ∅
  named : ∀ ⦃name u⦄, units.get? name = some u → u.name = name := by simp
deriving Repr

namespace Context

/-- A context without units. -/
def empty (root : String) : Context := { root }

instance : Inhabited Context := ⟨empty ""⟩

/-- The context with a unit under its name, in place of any other one there. -/
def put (c : Context) (u : SourceUnit) : Context where
  root := c.root
  units := c.units.set u.name u
  named := by
    intro name v h
    by_cases hname : name = u.name
    · rw [hname, Table.get?_set_self, Option.some.injEq] at h
      rw [← h, hname]
    · rw [Table.get?_set_of_ne _ _ hname] at h
      exact c.named h

/-- Adds a unit, whose name has to be new. -/
def add (c : Context) (u : SourceUnit) : Except Failure Context :=
  match c.units.get? u.name with
  | some old => .error (.duplicateUnit u.name u.path old.path)
  | none => .ok (c.put u)

/-! ## Loading units -/

/-- Announces the loading of a unit. -/
def announce (path : String) : Logged Unit :=
  Logged.tell (.opening ("Loading " ++ Path.baseName path))

/-- Says that a step went well. -/
def confirm : Logged Unit := Logged.tell (.closing "ok")

/-- The kind of a group member: plus packages have a plus sign in the last part of their name. -/
def memberKind (name : String) : UnitKind :=
  if Text.contains (Path.baseName name) "+" then .plus else .normal

/-- Loads and adds the member packages of a group. -/
def addMembers (tree : FileTree) (verbose : Bool) (group : String) :
    List String → Context → Logged Context
  | [], c => return c
  | name :: rest, c => do
    let package ← SourceUnit.loadPackage tree verbose (Path.join group name) (memberKind name)
    addMembers tree verbose group rest (← c.add package)

/-- Loads and adds a package group with its members. -/
def addGroup (tree : FileTree) (verbose : Bool) (c : Context) (path : String) :
    Logged Context := do
  announce path
  let group ← SourceUnit.loadGroup tree verbose path
  let c ← c.add group
  let c ← addMembers tree verbose path group.members c
  confirm
  return c

/-- Loads and adds a package outside groups. -/
def addPackage (tree : FileTree) (verbose : Bool) (kind : UnitKind) (c : Context) (path : String) :
    Logged Context := do
  announce path
  let c ← c.add (← SourceUnit.loadPackage tree verbose path kind)
  confirm
  return c

/-- Adds a third-party directory. -/
def addThirdParty (c : Context) (path : String) : Logged Context := do
  announce path
  let c ← c.add { name := Path.baseName path, path, kind := .thirdParty }
  confirm
  return c

/-- The paths of the directories inside `dir` that pass a test. -/
def placesIn (tree : FileTree) (test : String → Bool) (dir : String) : List String :=
  ((tree.subdirs dir).map (Path.join dir)).filter test

/-- Adds what is found in each of the directories that a field of the layout lists. -/
def addField (add : Context → String → Logged Context) (field : Datum) (c : Context) :
    Logged Context := do
  let dirs ← field.members
  dirs.foldlM (fun c dir =>
    match dir with
    | .str d => add c d
    | _ => Logged.fail .wrongType) c

/-- Adds the units found in a directory of a repository, if it is there. -/
def addPlaces (tree : FileTree) (root : String) (test : String → Bool)
    (add : Context → String → Logged Context) (c : Context) (dir : String) : Logged Context :=
  let path := Path.join root dir
  if tree.isDir path then (placesIn tree test path).foldlM add c else return c

/-- Adds the group that a directory of a repository is itself, if it is one. -/
def addRoot (tree : FileTree) (verbose : Bool) (root : String) (c : Context) (dir : String) :
    Logged Context :=
  let path := if dir == "." then root else Path.join root dir
  if SourceUnit.isGroupPath tree path then addGroup tree verbose c path else return c

/-- Adds the units to which the layout of a repository leads. -/
def addLayout (tree : FileTree) (verbose : Bool) (root : String) (layout : Layout) (c : Context) :
    Logged Context := do
  let places := addPlaces tree root
  let c ← addField (places (SourceUnit.isGroupPath tree) (addGroup tree verbose)) layout.groups c
  let c ← addField (places (SourceUnit.isPackagePath tree)
    (addPackage tree verbose .standAlone)) layout.standAlones c
  let c ← addField (places (SourceUnit.isPackagePath tree)
    (addPackage tree verbose .application)) layout.applications c
  let c ← addField (places (SourceUnit.isThirdPartyPath tree) addThirdParty) layout.thirdParties c
  addField (addRoot tree verbose root) layout.groupRoots c

/-- Adds all units of a repository. -/
def addRepository (tree : FileTree) (verbose : Bool) (c : Context) (root : String) :
    Logged Context := do
  let (layout, config) ← Layout.find tree root
  if let some path := config then
    Logged.tell (.opening "Using layout configuration from")
    Logged.tell (.closing path)
  addLayout tree verbose root layout c

/-! ## Documentation and versions -/

/-- The units of release. -/
def releases (c : Context) : Table SourceUnit := c.units.filter fun _ u => u.kind.isRelease

/-- Completes the units of release with documentation and version, in turn. -/
def completeFrom (tree : FileTree) :
    List SourceUnit → Release.Known → Context → Except Failure Context
  | [], _, c => return c
  | u :: rest, known, c => do
    let (known, version) := Release.version tree c.releases u known
    let u := { u with doc := some (Release.doc tree u.name u.path), version := ← version }
    completeFrom tree rest known (c.put u)

/-- Completes the units of release with documentation and version. -/
def complete (tree : FileTree) (c : Context) : Except Failure Context :=
  completeFrom tree c.releases.values ∅ c

/-! ## Loading contexts -/

/-- Loads the context of a repository, or of a workspace of repositories. -/
def load (tree : FileTree) (verbose : Bool) (root : String) : Logged Context := do
  let c := empty root
  let c ←
    if tree.isFile (Path.join root ".bdeworkspaceconfig") then
      (placesIn tree SourceUnit.isRepositoryPath root).foldlM (fun c path => do
        Logged.tell (.opening "Entering repo")
        Logged.tell (.closing (Path.baseName path))
        addRepository tree verbose c path) c
    else addRepository tree verbose c root
  complete tree c

/-! ## Graphs -/

/-- The graph of the units of release and their dependencies. -/
def releaseGraph (c : Context) : Digraph := c.releases.map SourceUnit.deps

/-- A member of a group with its dependencies. -/
def memberNode (c : Context) (name : String) : Except Failure (String × List String) :=
  match c.units.get? name with
  | none => .error .absentKey
  | some package => if package.kind.isInner then .ok (name, package.deps) else .error .violated

/-- The graph of the packages of a group and their dependencies. -/
def packageGraph (c : Context) (group : SourceUnit) : Except Failure Digraph := do
  if group.kind != .group then throw .violated
  return Table.ofList (← group.members.mapM c.memberNode)

end Context

end BuildMeta
