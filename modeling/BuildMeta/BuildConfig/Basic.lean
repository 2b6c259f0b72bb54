import BuildMeta.Flags.BuildFlags
import BuildMeta.Repo.SourceUnit

/-!
# Build configurations

A build configuration holds, for one platform and flavour, what is needed to build a repository:
the units that can be built, with evaluated flags in place of option rules.
-/

namespace BuildMeta

/-- The configuration of a package group. -/
structure GroupConfig where
  name : String
  path : String
  doc : Option UnitDoc
  version : Option ReleaseVersion
  deps : List String
  externalDeps : List String
  flags : BuildFlags
  members : List String
deriving Repr, BEq, DecidableEq, Inhabited

/-- The configuration of a package outside groups. -/
structure PackageConfig where
  name : String
  path : String
  doc : Option UnitDoc
  version : Option ReleaseVersion
  deps : List String
  externalDeps : List String
  flags : BuildFlags
  kind : UnitKind
  hasDums : Bool
  components : List Component
  appMain : Option String
deriving Repr, BEq, DecidableEq, Inhabited

/-- The configuration of a package inside a group.  A plus package has files, any other package
has components. -/
structure InnerConfig where
  name : String
  path : String
  deps : List String
  flags : BuildFlags
  kind : UnitKind
  hasDums : Bool
  components : List Component
  files : PlusFiles
deriving Repr, BEq, DecidableEq, Inhabited

/-- What is needed to build a repository for one platform and flavour. -/
structure BuildConfig where
  root : String
  uplid : Uplid
  ufid : Ufid
  /-- The flags of a unit without rules of its own. -/
  defaultFlags : BuildFlags
  /-- Variables to be set in the environment of build commands. -/
  customEnvs : Table String := ∅
  /-- Names of shared objects that differ from the default. -/
  sonames : Table String := ∅
  /-- Names that units depend on without being units. -/
  externalDeps : List String
  groups : Table GroupConfig := ∅
  standAlones : Table PackageConfig := ∅
  inners : Table InnerConfig := ∅
  thirdParties : Table SourceUnit := ∅
deriving Repr, Inhabited

/-! ## Views -/

/-- The parts that configurations of units of release share, by name. -/
def releaseView (name path : String) (doc : Option UnitDoc) (version : Option ReleaseVersion)
    (deps externalDeps : List String) (flags : BuildFlags) : List (String × Datum) :=
  [("name", .str name), ("path", .str path), ("doc", (doc.map UnitDoc.view).getD .null),
    ("version", (version.map ReleaseVersion.view).getD .null), ("dep", .strs deps),
    ("external_dep", .strs externalDeps), ("flags", flags.view)]

/-- The parts by name. -/
def GroupConfig.view (g : GroupConfig) : Datum :=
  .dict (releaseView g.name g.path g.doc g.version g.deps g.externalDeps g.flags ++
    [("mem", .strs g.members)])

/-- The parts by name. -/
def PackageConfig.view (p : PackageConfig) : Datum :=
  .dict (releaseView p.name p.path p.doc p.version p.deps p.externalDeps p.flags ++
    [("type", .int p.kind.code), ("has_dums", .bool p.hasDums),
      ("components", .list (p.components.map Component.view)), ("app_main", .optStr p.appMain)])

/-- The parts by name. -/
def InnerConfig.view (p : InnerConfig) : Datum :=
  .dict ([("name", .str p.name), ("path", .str p.path), ("dep", .strs p.deps),
      ("flags", p.flags.view), ("type", .int p.kind.code), ("has_dums", .bool p.hasDums)] ++
    if p.kind == .plus then p.files.view.fields.entries
    else [("components", .list (p.components.map Component.view))])

namespace BuildConfig

/-- The parts by name. -/
def view (b : BuildConfig) : List (String × Datum) :=
  [("root_path", .str b.root), ("uplid", .str b.uplid.render), ("ufid", b.ufid.view),
    ("default_flags", b.defaultFlags.view), ("custom_envs", .ofTexts b.customEnvs),
    ("soname_overrides", .ofTexts b.sonames), ("external_dep", .strs b.externalDeps),
    ("package_groups", .dict (b.groups.map GroupConfig.view).entries),
    ("stdalone_packages", .dict (b.standAlones.map PackageConfig.view).entries),
    ("inner_packages", .dict (b.inners.map InnerConfig.view).entries),
    ("third_party_dirs", .dict (b.thirdParties.map SourceUnit.view).entries)]

/-! ## Graphs and counts -/

/-- The graph of the units of release and their dependencies. -/
def releaseGraph (b : BuildConfig) : Digraph :=
  Table.ofList ((b.standAlones.map PackageConfig.deps).entries ++
    (b.groups.map GroupConfig.deps).entries ++
    (b.thirdParties.map fun _ => ([] : List String)).entries)

/-- A member of a group with its dependencies inside the group. -/
def memberNode (b : BuildConfig) (g : GroupConfig) (name : String) :
    Except Failure (String × List String) :=
  match b.inners.get? name with
  | none => .error .absentKey
  | some p => .ok (name, p.deps.filter g.members.contains)

/-- The graph of the packages of a group and their dependencies inside the group. -/
def packageGraph (b : BuildConfig) (group : String) : Except Failure Digraph := do
  match b.groups.get? group with
  | none => throw .absentKey
  | some g => return Table.ofList (← g.members.mapM (b.memberNode g))

/-- The number of components of a package, or of source files of a plus package. -/
def innerCount (p : InnerConfig) : Nat :=
  if p.kind == .plus then p.files.cppSources.length else p.components.length

end BuildConfig

end BuildMeta
