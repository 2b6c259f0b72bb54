import BuildMeta.BuildConfig.Basic
import BuildMeta.Digraph.Order
import BuildMeta.Options.Evaluate
import BuildMeta.Options.Store
import BuildMeta.Repo.Context

/-!
# Making build configurations

The options of a unit of release are built up from the default rules, the exported rules of its
dependencies by levels, its own exported rules and its own internal rules.  A unit whose option
`CAPABILITY` has the value `NEVER` is left out.
-/

namespace BuildMeta.BuildConfig

/-- What a configuration is made for, and from. -/
structure Plan where
  style : FlagStyle
  uplid : Uplid
  ufid : Ufid
  shell : Shell
  environment : Table String
  /-- The options whose values are reported. -/
  watched : List String := []

namespace Plan

/-- The build for which rules are chosen.  Flags for shared objects are not taken from rules. -/
def target (plan : Plan) : Options.Target where
  uplid := plan.uplid
  ufid := plan.ufid.erase "shr"
  shell := plan.shell

/-- Stores rules without reports. -/
def store (plan : Plan) (options : Table String) (rules : List Rule) :
    Logged (Table String × List Rule) :=
  Options.storeRules plan.target [] options rules

/-- The values of options, given the values known before. -/
def evaluate (plan : Plan) (watched : List String) (options known : Table String) :
    Logged (Table String) :=
  Options.evaluate options plan.environment watched known

end Plan

/-- The options with which a build starts. -/
def initialOptions : Table String := Table.ofList [("BDE_CXXINCLUDES", "$(BDE_CXXINCLUDE)")]

/-- The name of the option that holds the place of a unit. -/
def locationKey (name : String) : String :=
  Text.replaceChar '+' '_' (Text.upper name) ++ "_LOCN"

/-- The name and value in a text of the form `name=value`. -/
def assignment? (s : String) : Option (String × String) :=
  let chars := s.toList
  let name := chars.takeWhile (· != '=')
  let value := chars.drop (name.length + 1)
  let value := if value.getLast? == some '\n' then value.dropLast else value
  if name.isEmpty || name.length == chars.length || value.contains '\n' then none
  else some (String.ofList name, String.ofList value)

/-- The environment variables that options ask to be set. -/
def customEnvironment (values : Table String) : Table String :=
  Table.ofList (["SET_TMPDIR", "XLC_LIBPATH"].filterMap fun key =>
    (values.get? key).bind assignment?)

/-- Stores the exported rules of a unit.  The units are returned with the commands in these rules
carried out. -/
def storeExported (plan : Plan) (units : Table SourceUnit) (name : String)
    (options : Table String) : Logged (Table String × Table SourceUnit) := do
  match units.get? name with
  | none => Logged.fail .absentKey
  | some u =>
    let (options, cap) ← plan.store options u.cap
    let (options, defs) ← plan.store options u.defs
    return (options, units.set name { u with cap, defs })

/-- Stores the exported rules of the dependencies that have any, in turn. -/
def storeDependencies (plan : Plan) (config : BuildConfig) :
    List String → Table SourceUnit → Table String → Logged (Table String × Table SourceUnit)
  | [], units, options => return (options, units)
  | name :: rest, units, options => do
    if config.externalDeps.contains name || config.thirdParties.has name then
      storeDependencies plan config rest units options
    else
      let (options, units) ← storeExported plan units name options
      storeDependencies plan config rest units options

/-- Whether the build is one of Visual Studio. -/
def isVisualStudio (uplid : Uplid) : Bool :=
  uplid.osType == "windows" && uplid.compilerType == "cl"

/-- Appends text to an option that has to be set. -/
def appendTo (options : Table String) (key text : String) : Except Failure (Table String) :=
  match options.get? key with
  | some value => .ok (options.set key (value ++ text))
  | none => .error .absentKey

/-- With Visual Studio every unit of release has a debug information file of its own. -/
def nameDebugFile (plan : Plan) (root : String) (u : SourceUnit) (options : Table String) :
    Except Failure (Table String) := do
  if !isVisualStudio plan.uplid then return options
  let flag := " /Fd" ++ Path.relative u.path root ++ "\\" ++ u.name ++ ".pdb"
  appendTo (← appendTo options "BDE_CXXFLAGS" flag) "BDE_CFLAGS" flag

/-- Says which unit is evaluated, if any options are watched. -/
def announceEvaluation (plan : Plan) (name : String) : Logged Unit :=
  if plan.watched.isEmpty then pure () else Logged.tell (.info ("--Evaluating " ++ name))

/-- Whether a unit cannot be built on the platform. -/
def isUnsupported (values : Table String) : Bool := values.get? "CAPABILITY" == some "NEVER"

/-- The options of a package of a group, given the internal options of the group. -/
def memberOptions (plan : Plan) (options : Table String) (p : SourceUnit) :
    Logged (Table String) := do
  let (options, _) ← plan.store options p.opts
  let (options, _) ← plan.store options p.cap
  return options

/-- Configures a package of a group, given its options and the values known before.  The result is
empty if the package cannot be built. -/
def inner? (plan : Plan) (options known : Table String) (p : SourceUnit) :
    Logged (Option InnerConfig) := do
  announceEvaluation plan p.name
  let values ← plan.evaluate plan.watched options (known.set (locationKey p.name) p.path)
  if isUnsupported values then
    Logged.tell (.warn ("Skipped non-supported package " ++ p.name))
    return none
  return some {
    name := p.name
    path := p.path
    deps := p.deps
    flags := ← BuildFlags.ofOptions plan.style values
    kind := p.kind
    hasDums := p.hasDums
    components := p.components
    files := p.plusFiles.getD {} }

/-- Configures the packages of a group in turn, each with its own options, and adds those that can be
built. -/
def addInners (plan : Plan) (optionsOf : SourceUnit → Logged (Table String)) (known : Table String)
    (units : Table SourceUnit) :
    List String → Table InnerConfig → Logged (List String × Table InnerConfig)
  | [], inners => return ([], inners)
  | name :: rest, inners => do
    match units.get? name with
    | none => Logged.fail .absentKey
    | some p =>
      let options ← optionsOf p
      match ← inner? plan options known p with
      | none => addInners plan optionsOf known units rest inners
      | some config => do
        let (names, inners) ←
          addInners plan optionsOf known units rest (inners.set name config)
        return (name :: names, inners)

/-- The units whose own flags include the exported flags of their dependencies. -/
def exportsAll (name : String) : Bool := name == "bsl"

/-- The options of a unit of release before its internal rules. -/
structure Loaded where
  /-- The names below the unit, by levels. -/
  below : List String
  /-- The values of what the dependencies export. -/
  depValues : Table String
  /-- The options that the unit exports. -/
  exported : Table String

/-- Loads what the dependencies of a unit export, then what the unit exports itself. -/
def load (plan : Plan) (graph : Digraph) (base : Table String) (u : SourceUnit)
    (units : Table SourceUnit) (config : BuildConfig) :
    Logged (Loaded × Table SourceUnit) := do
  let below := (← graph.levelsFrom (graph.children u.name)).flatten
  let (options, units) ← storeDependencies plan config below units base
  let options ← nameDebugFile plan config.root u options
  let depValues ← plan.evaluate [] options ∅
  let (exported, units) ← storeExported plan units u.name options
  return ({ below, depValues, exported }, units)

/-- The value that is known of a unit's options before they are evaluated: its place. -/
def location (u : SourceUnit) : Table String := Table.ofList [(locationKey u.name, u.path)]

/-- The flags of a unit of release.  What its dependencies export is not exported again. -/
def releaseFlags (plan : Plan) (name : String) (depValues exportValues values : Table String) :
    Except Failure BuildFlags := do
  let depFlags ← BuildFlags.ofExports plan.style depValues depValues [] []
  let (knownFlags, knownLibs) :=
    if exportsAll name then ([], [])
    else (depFlags.exportFlags.getD [], depFlags.exportLibs.getD [])
  BuildFlags.ofExports plan.style values exportValues knownFlags knownLibs

/-- Adds a unit of release with its flags and, if it is a group, its packages. -/
def enter (plan : Plan) (u : SourceUnit) (below : List String)
    (optionsOf : SourceUnit → Logged (Table String)) (flags : BuildFlags) (units : Table SourceUnit)
    (config : BuildConfig) : Logged BuildConfig := do
  let deps := u.deps.filter (!config.externalDeps.contains ·)
  let externalDeps := Text.sortedSet (below.filter config.externalDeps.contains)
  if u.kind == .group then
    let (members, inners) ← addInners plan optionsOf (location u) units u.members config.inners
    let group : GroupConfig :=
      { name := u.name, path := u.path, doc := u.doc, version := u.version, deps, externalDeps,
        flags, members }
    return { config with inners, groups := config.groups.set u.name group }
  else
    let package : PackageConfig :=
      { name := u.name, path := u.path, doc := u.doc, version := u.version, deps, externalDeps,
        flags, kind := u.kind, hasDums := u.hasDums, components := u.components,
        appMain := u.appMain }
    return { config with standAlones := config.standAlones.set u.name package }

/-- Configures a unit of release and adds it, unless it cannot be built. -/
def addRelease (plan : Plan) (graph : Digraph) (base : Table String) (u : SourceUnit)
    (units : Table SourceUnit) (config : BuildConfig) :
    Logged (Table SourceUnit × BuildConfig) := do
  let (loaded, units) ← load plan graph base u units config
  let exportValues ← plan.evaluate [] loaded.exported (location u)
  if isUnsupported exportValues then
    Logged.tell (.warn ("Skipped non-supported UOR " ++ u.name))
    return (units, config)
  let (internal, _) ← plan.store loaded.exported u.opts
  announceEvaluation plan u.name
  let values ← plan.evaluate plan.watched internal (location u)
  let flags ← releaseFlags plan u.name loaded.depValues exportValues values
  let config ← enter plan u loaded.below (memberOptions plan internal) flags units config
  return (units, config)

/-- Configures units of release in turn. -/
def addReleases (plan : Plan) (graph : Digraph) (base : Table String) :
    List SourceUnit → Table SourceUnit → BuildConfig → Logged BuildConfig
  | [], _, config => return config
  | u :: rest, units, config => do
    let (units, config) ← addRelease plan graph base (units.getD u.name u) units config
    addReleases plan graph base rest units config

/-- The names of shared objects that the environment overrides. -/
def sonamesFrom (environment : Table String) (names : List String) : Table String :=
  Table.ofList (names.filterMap fun name =>
    match environment.get? ("BDE_" ++ Text.upper name ++ "_SONAME") with
    | some "" | none => none
    | some soname => some (name, soname))

/-- The options that the default rules give, and the configuration before any unit is added. -/
def start (plan : Plan) (context : Context) (defaults : List Rule) :
    Logged (Table String × BuildConfig) := do
  let (base, _) ← Options.storeRules plan.target plan.watched initialOptions defaults
  let values ← plan.evaluate [] base ∅
  let config : BuildConfig :=
    { root := context.root
      uplid := plan.uplid
      ufid := plan.ufid
      defaultFlags := ← BuildFlags.ofExports plan.style values values [] []
      customEnvs := customEnvironment values
      externalDeps := context.releaseGraph.externalNodes
      thirdParties := context.releases.filter fun _ u => u.kind == .thirdParty }
  return (base, config)

/-- The units of release that are configured, in turn. -/
def configurable (context : Context) : List SourceUnit :=
  context.releases.values.filter (·.kind != .thirdParty)

/-- Makes the build configuration of a repository from its units and the default rules. -/
def make (plan : Plan) (context : Context) (defaults : List Rule) : Logged BuildConfig := do
  let (base, config) ← start plan context defaults
  let config ← addReleases plan context.releaseGraph base (configurable context) context.units config
  return { config with sonames := sonamesFrom plan.environment context.releases.keys }

end BuildMeta.BuildConfig
