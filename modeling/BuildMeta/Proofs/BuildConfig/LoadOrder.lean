import BuildMeta.Proofs.BuildConfig.Faithful
import BuildMeta.Proofs.Digraph.LevelOrder
import Mathlib

/-!
# `Proofs.BuildConfig.LoadOrder` — the rules that make up the options of a unit

Where no rule holds a command, the options of a unit of release are decided by a list of rules: the
default rules, the exported rules of what the unit depends on in the order of `LoadOrder`, and its own
ones.  `TurnTables` are the options that a unit's turn goes through.  The steps of a configuration keep
adding to one table; `turn_storedAfresh` says that this leaves the same tables as rules that are stored
afresh for each of them.
-/

namespace BuildMeta.BuildConfig

open Options Relation

variable {plan : Plan} {base options : Table String} {u : SourceUnit} {units : Table SourceUnit}
  {config : BuildConfig} {name : String} {names : List String} {c : Context} {defaults : List Rule}

/-! ## Rules and their order -/

/-- The rules that a unit exports. -/
def exportedRules (u : SourceUnit) : List Rule := u.cap ++ u.defs

/-- No rule of the repository holds a command. -/
structure WithoutCommands (c : Context) (defaults : List Rule) : Prop where
  defaults : ∀ rule ∈ defaults, CommandFree rule.value.toList
  exported : ∀ ⦃name u⦄, c.units.get? name = some u →
    ∀ rule ∈ exportedRules u, CommandFree rule.value.toList
  opts : ∀ ⦃name u⦄, c.units.get? name = some u → ∀ rule ∈ u.opts, CommandFree rule.value.toList

/-- The units whose rules are loaded for a unit: the units of release that it depends on, but no
    third-party directories.  Each stands in the list once, by the length of its longest path of
    dependencies and then by name, so that none is loaded before what it depends on. -/
structure LoadOrder (c : Context) (u : SourceUnit) (ds : List SourceUnit) : Prop where
  mem_iff : ∀ d, d ∈ ds ↔ c.releases.get? d.name = some d ∧ d.kind ≠ .thirdParty ∧
    TransGen c.releaseGraph.Edge u.name d.name
  nodup : (ds.map SourceUnit.name).Nodup
  levelOrder : ds.Pairwise fun d e => c.releaseGraph.LevelBefore d.name e.name
  dependenciesFirst : ds.Pairwise fun d e => ¬ TransGen c.releaseGraph.Edge d.name e.name

/-- The unit whose rules are loaded under a name, if it has any that are. -/
def loadedUnit? (c : Context) (name : String) : Option SourceUnit :=
  (c.releases.get? name).filter (·.kind != .thirdParty)

theorem loadedUnit?_eq_some_iff :
    loadedUnit? c name = some u ↔ c.releases.get? name = some u ∧ u.kind ≠ .thirdParty := by
  unfold loadedUnit?
  rw [Option.filter_eq_some_iff, bne_iff_ne]

theorem get?_units_of_loadedUnit? (h : loadedUnit? c name = some u) : c.units.get? name = some u :=
  (Context.get?_releases.mp (loadedUnit?_eq_some_iff.mp h).1).1

/-- The units loaded for a list of names are those of release under these names, but for third-party
    directories. -/
theorem mem_filterMap_loadedUnit? {d : SourceUnit} :
    d ∈ names.filterMap (loadedUnit? c) ↔
      d.name ∈ names ∧ c.releases.get? d.name = some d ∧ d.kind ≠ .thirdParty := by
  simp only [List.mem_filterMap, loadedUnit?_eq_some_iff]
  constructor
  · rintro ⟨name, hname, hd, hkind⟩
    obtain rfl := Context.named_releases hd
    exact ⟨hname, hd, hkind⟩
  · rintro ⟨hname, hd, hkind⟩
    exact ⟨d.name, hname, hd, hkind⟩

/-- Taking the units off a list of levels below a node keeps all that makes it a load order. -/
theorem loadOrder_filterMap (h : c.releaseGraph.LevelsBelow u.name names) :
    LoadOrder c u (names.filterMap (loadedUnit? c)) := by
  have hlevel : (names.filterMap (loadedUnit? c)).Pairwise fun d e =>
      c.releaseGraph.LevelBefore d.name e.name := by
    rw [List.pairwise_filterMap]
    refine h.levelOrder.imp ?_
    intro m n hmn d hd e he
    rw [Context.named_releases (loadedUnit?_eq_some_iff.mp hd).1,
      Context.named_releases (loadedUnit?_eq_some_iff.mp he).1]
    exact hmn
  refine ⟨fun d => ?_, ?_, hlevel, hlevel.imp fun h => h.not_below⟩
  · rw [mem_filterMap_loadedUnit?, h.mem_iff, and_comm, and_assoc]
  · rw [List.nodup_iff_pairwise_ne, List.pairwise_map]
    exact hlevel.imp fun h => h.ne

/-- There is only one load order. -/
theorem LoadOrder.unique {ds ds' : List SourceUnit} (h : LoadOrder c u ds) (h' : LoadOrder c u ds') :
    ds' = ds := by
  -- They have the same elements, and the level order is asymmetric.
  have hperm : ds'.Perm ds :=
    (List.perm_ext_iff_of_nodup h'.nodup.of_map h.nodup.of_map).mpr fun d =>
      (h'.mem_iff d).trans (h.mem_iff d).symm
  exact hperm.eq_of_pairwise (fun _ _ _ _ hde hed => absurd hed hde.asymm) h'.levelOrder h.levelOrder

/-! ## Storing without commands -/

theorem Plan.store_eq_pure {rules : List Rule} (plan : Plan) (options : Table String)
    (h : ∀ rule ∈ rules, CommandFree rule.value.toList) :
    plan.store options rules = pure (plan.target.stored options rules, rules) :=
  storeRules_eq_pure plan.target options h

/-- Without commands the exported rules are stored in one go, and the units stay as they are. -/
theorem storeExported_eq_pure (hfree : WithoutCommands c defaults)
    (hu : c.units.get? name = some u) :
    storeExported plan c.units name options
      = pure (plan.target.stored options (exportedRules u), c.units) := by
  have hcap := fun rule h => hfree.exported hu rule (List.mem_append_left _ h)
  have hdefs := fun rule h => hfree.exported hu rule (List.mem_append_right _ h)
  unfold storeExported
  rw [hu]
  simp only [plan.store_eq_pure _ hcap, plan.store_eq_pure _ hdefs, pure_bind]
  rw [exportedRules, stored_append, Table.set_eq_self hu]

/-- Without commands the units stay as they are. -/
theorem stable_units (plan : Plan) (hfree : WithoutCommands c defaults) :
    Stable plan (· = c.units) := by
  intro units name options out hunits h
  subst hunits
  obtain ⟨u, _, _, _, hu, _⟩ := storeExported_ok.mp h
  rw [storeExported_eq_pure hfree hu] at h
  cases h
  rfl

/-- The names that are passed over are those under which no rules are loaded. -/
theorem Faithful.isPassedOver_iff (hf : Faithful c config) (hname : name ∈ c.releaseGraph.nodes) :
    isPassedOver config name = true ↔ loadedUnit? c name = none := by
  unfold isPassedOver
  rw [Bool.or_eq_true, List.contains_iff_mem, hf.externalDeps, Digraph.mem_externalNodes,
    Table.has_iff, hf.thirdParties, Context.keys_releaseGraph,
    Table.mem_keys_iff (t := c.releases.filter _)]
  simp only [Table.get?_filter_eq_some_iff, beq_iff_eq]
  cases hu : c.releases.get? name with
  | none =>
    have hkey : name ∉ c.releases.keys := Table.get?_eq_none_iff.mp hu
    -- A node that is no key is somebody's child, so the name counts as external.
    have hedge := (Digraph.mem_nodes.mp hname).resolve_left (by
      rw [Context.keys_releaseGraph]
      exact hkey)
    refine ⟨fun _ => ?_, fun _ => Or.inl ⟨hkey, hedge⟩⟩
    rw [loadedUnit?, hu, Option.filter_none]
  | some u =>
    have hkey : name ∈ c.releases.keys := Table.mem_keys_of_get? hu
    by_cases hkind : u.kind = .thirdParty
    · refine ⟨fun _ => ?_, fun _ => Or.inr ⟨u, rfl, hkind⟩⟩
      simp [loadedUnit?, hu, hkind]
    · have hloaded : loadedUnit? c name = some u := loadedUnit?_eq_some_iff.mpr ⟨hu, hkind⟩
      rw [hloaded]
      refine ⟨?_, fun h => by cases h⟩
      rintro (⟨hnot, _⟩ | ⟨v, hv, hthird⟩)
      · exact absurd hkey hnot
      · cases hv
        exact absurd hthird hkind

theorem Faithful.not_isPassedOver (hf : Faithful c config) (hname : name ∈ c.releaseGraph.nodes)
    (hu : loadedUnit? c name = some u) : isPassedOver config name = false := by
  rw [← Bool.not_eq_true, hf.isPassedOver_iff hname, hu]
  simp

/-- So are the rules of all dependencies.  The names that are passed over have no rules to load, so
    each name stands for its unit or for nothing. -/
theorem storeDependencies_eq_pure (hfree : WithoutCommands c defaults) (hf : Faithful c config)
    (hnames : ∀ n ∈ names, n ∈ c.releaseGraph.nodes) :
    storeDependencies plan config names c.units options
      = pure (plan.target.stored options ((names.filterMap (loadedUnit? c)).flatMap exportedRules),
          c.units) := by
  induction names generalizing options with
  | nil => rfl
  | cons name rest ih =>
    have hrest : ∀ n ∈ rest, n ∈ c.releaseGraph.nodes := fun n hn =>
      hnames n (List.mem_cons_of_mem _ hn)
    have hname := hnames name List.mem_cons_self
    cases hloaded : loadedUnit? c name with
    | none =>
      rw [storeDependencies_cons_of_passedOver ((hf.isPassedOver_iff hname).mpr hloaded), ih hrest,
        List.filterMap_cons_none hloaded]
    | some d =>
      rw [storeDependencies_cons_of_not (hf.not_isPassedOver hname hloaded),
        storeExported_eq_pure hfree (get?_units_of_loadedUnit? hloaded), pure_bind, ih hrest,
        List.filterMap_cons_some hloaded, List.flatMap_cons, stored_append]

/-! ## The tables of a turn -/

/-- The rules leave `options` on a table of their own.  The table starts with the one option that a
    build starts with, and the flag for shared objects is not among those that rules are chosen by. -/
def StoredAfresh (plan : Plan) (rules : List Rule) (options : Table String) : Prop :=
  let target : Target :=
    { uplid := plan.uplid, ufid := ⟨plan.ufid.flags.filter (· != "shr")⟩, shell := plan.shell }
  storeRules target [] (.ofList [("BDE_CXXINCLUDES", "$(BDE_CXXINCLUDE)")]) rules
    = pure (options, rules)

theorem storedAfresh_stored {rules : List Rule} (plan : Plan)
    (h : ∀ rule ∈ rules, CommandFree rule.value.toList) :
    StoredAfresh plan rules (plan.target.stored initialOptions rules) :=
  storeRules_eq_pure plan.target initialOptions h

theorem StoredAfresh.unique {rules : List Rule} {options' : Table String}
    (h : StoredAfresh plan rules options) (h' : StoredAfresh plan rules options') :
    options = options' := by
  have heq : (pure (options, rules) : Logged _) = pure (options', rules) := h.symm.trans h'
  cases heq
  rfl

/-- The options that the turn of a unit of release goes through. -/
structure TurnTables where
  /-- The options of what the unit depends on. -/
  imported : Table String
  /-- The options that the exported flags of the unit come from. -/
  exported : Table String
  /-- The options that its own flags come from. -/
  internal : Table String
  /-- The options of a package, if the unit is a group. -/
  member : SourceUnit → Table String

/-- Each of the tables is stored afresh, from a longer list of rules each time.  The list starts with the
    rules from outside the unit. -/
structure TurnTables.Afresh (t : TurnTables) (plan : Plan) (c : Context) (rules : List Rule)
    (u : SourceUnit) : Prop where
  imported : StoredAfresh plan rules t.imported
  exported : StoredAfresh plan (rules ++ exportedRules u) t.exported
  internal : StoredAfresh plan (rules ++ exportedRules u ++ u.opts) t.internal
  member : ∀ ⦃name p⦄, c.units.get? name = some p →
    StoredAfresh plan (rules ++ exportedRules u ++ u.opts ++ p.opts ++ p.cap) (t.member p)

/-- The tables are those of a unit's turn: what it loads, what it stores after that, and what it stores
    for a package. -/
structure TurnTables.Carried (t : TurnTables) (plan : Plan) (graph : Digraph) (base : Table String)
    (below : List String) (u : SourceUnit) (units : Table SourceUnit) (config : BuildConfig) :
    Prop where
  load : load plan graph base u units config = do
    let depValues ← evaluate t.imported plan.environment [] ∅
    return (⟨below, depValues, t.exported⟩, units)
  internal : plan.store t.exported u.opts = pure (t.internal, u.opts)
  member : ∀ ⦃name p⦄, units.get? name = some p →
    memberOptions plan t.internal p = pure (t.member p)

/-- Configures a unit of release from tables of options that are given, with nothing left to store. -/
def addFrom (plan : Plan) (t : TurnTables) (below : List String) (u : SourceUnit)
    (units : Table SourceUnit) (config : BuildConfig) : Logged (Table SourceUnit × BuildConfig) := do
  let place := Table.ofList [(locationKey u.name, u.path)]
  let depValues ← evaluate t.imported plan.environment [] ∅
  let exportValues ← evaluate t.exported plan.environment [] place
  if isUnsupported exportValues then
    Logged.tell (.warn ("Skipped non-supported UOR " ++ u.name))
    return (units, config)
  announceEvaluation plan u.name
  let values ← evaluate t.internal plan.environment plan.watched place
  let flags ← releaseFlags plan u.name depValues exportValues values
  return (units, ← enter plan u below (fun p => pure (t.member p)) flags units config)

/-- Only the options of packages that exist matter. -/
theorem addInners_congr {optionsOf optionsOf' : SourceUnit → Logged (Table String)}
    (h : ∀ ⦃name p⦄, units.get? name = some p → optionsOf p = optionsOf' p) {known : Table String}
    {inners : Table InnerConfig} :
    addInners plan optionsOf known units names inners
      = addInners plan optionsOf' known units names inners := by
  induction names generalizing inners with
  | nil => rfl
  | cons name rest ih =>
    rw [addInners, addInners]
    cases hp : units.get? name with
    | none => rfl
    | some p => simp only [h hp, ih]

theorem enter_congr {optionsOf optionsOf' : SourceUnit → Logged (Table String)}
    (h : ∀ ⦃name p⦄, units.get? name = some p → optionsOf p = optionsOf' p) {below : List String}
    {flags : BuildFlags} :
    enter plan u below optionsOf flags units config
      = enter plan u below optionsOf' flags units config := by
  unfold enter
  rw [addInners_congr h]

/-- A turn makes its flags from the tables that it goes through. -/
theorem TurnTables.Carried.addRelease_eq {t : TurnTables} {graph : Digraph} {below : List String}
    (h : t.Carried plan graph base below u units config) :
    addRelease plan graph base u units config = addFrom plan t below u units config := by
  unfold addRelease addFrom
  simp only [h.load, h.internal, bind_assoc, pure_bind, enter_congr h.member]
  rfl

/-- What is loaded for a unit, as a matter of rules. -/
theorem load_of_levels (hstudio : isVisualStudio plan.uplid = false)
    (hfree : WithoutCommands c defaults) (hf : Faithful c config) (hu : u ∈ configurable c)
    {levels : List (List String)}
    (hlevels : c.releaseGraph.levelsFrom (c.releaseGraph.children u.name) = .ok levels) :
    load plan c.releaseGraph base u c.units config = do
      let rules := (levels.flatten.filterMap (loadedUnit? c)).flatMap exportedRules
      let depValues ← plan.evaluate [] (plan.target.stored base rules) ∅
      return (⟨levels.flatten, depValues, plan.target.stored base (rules ++ exportedRules u)⟩,
        c.units) := by
  have hdebug : ∀ options, nameDebugFile plan config.root u options = .ok options := by
    intro options
    unfold nameDebugFile
    rw [hstudio]
    rfl
  have hget := get?_units_of_mem_configurable hu
  have hbelow := fun n => (Digraph.levelsBelow_of_levelsFrom hlevels).mem_nodes (m := n)
  unfold load
  simp only [hlevels, Logged.lift_ok, pure_bind, storeDependencies_eq_pure hfree hf hbelow, hdebug,
    storeExported_eq_pure hfree hget, ← stored_append]

/-- What is loaded when the values of the dependencies are known.  Concrete repositories are loaded
    by this lemma. -/
theorem load_of_values (hstudio : isVisualStudio plan.uplid = false)
    (hfree : WithoutCommands c defaults) (hf : Faithful c config) (hu : u ∈ configurable c)
    {levels : List (List String)} {rules : List Rule} {values : Table String}
    (hlevels : c.releaseGraph.levelsFrom (c.releaseGraph.children u.name) = .ok levels)
    (hrules : (levels.flatten.filterMap (loadedUnit? c)).flatMap exportedRules = rules)
    (hvalues : (plan.evaluate [] (plan.target.stored base rules) ∅).outcome = .ok values) :
    (load plan c.releaseGraph base u c.units config).outcome
      = .ok (⟨levels.flatten, values, plan.target.stored base (rules ++ exportedRules u)⟩, c.units) := by
  rw [load_of_levels hstudio hfree hf hu hlevels, hrules, Logged.outcome_bind, hvalues]
  rfl

/-- The tables of a turn when the rules from outside the unit are given. -/
def tablesOf (plan : Plan) (rules : List Rule) (u : SourceUnit) : TurnTables :=
  let stored := plan.target.stored initialOptions
  { imported := stored rules
    exported := stored (rules ++ exportedRules u)
    internal := stored (rules ++ exportedRules u ++ u.opts)
    member := fun p => stored (rules ++ exportedRules u ++ u.opts ++ p.opts ++ p.cap) }

/-- Without commands all lists of a turn can be stored afresh, and leave these tables. -/
theorem tablesOf_afresh (plan : Plan) (hfree : WithoutCommands c defaults)
    (hu : c.units.get? u.name = some u) {rules : List Rule}
    (hrules : ∀ rule ∈ rules, CommandFree rule.value.toList) :
    (tablesOf plan rules u).Afresh plan c rules u := by
  have hexported : ∀ rule ∈ rules ++ exportedRules u, CommandFree rule.value.toList :=
    List.forall_mem_append.mpr ⟨hrules, hfree.exported hu⟩
  have hinternal : ∀ rule ∈ rules ++ exportedRules u ++ u.opts, CommandFree rule.value.toList :=
    List.forall_mem_append.mpr ⟨hexported, hfree.opts hu⟩
  refine ⟨storedAfresh_stored plan hrules, storedAfresh_stored plan hexported,
    storedAfresh_stored plan hinternal, ?_⟩
  intro name p hp
  have hcap := (List.forall_mem_append.mp (hfree.exported hp)).1
  exact storedAfresh_stored plan (List.forall_mem_append.mpr
    ⟨List.forall_mem_append.mpr ⟨hinternal, hfree.opts hp⟩, hcap⟩)

/-- A turn adds to one table of options all the time.  Where there are no commands that leaves the same
    tables as the rules stored together. -/
theorem tablesOf_carried (hstudio : isVisualStudio plan.uplid = false)
    (hfree : WithoutCommands c defaults) (hf : Faithful c config) (hu : u ∈ configurable c)
    {levels : List (List String)}
    (hlevels : c.releaseGraph.levelsFrom (c.releaseGraph.children u.name) = .ok levels) :
    (tablesOf plan (defaults ++ (levels.flatten.filterMap (loadedUnit? c)).flatMap exportedRules)
      u).Carried
      plan c.releaseGraph (plan.target.stored initialOptions defaults) levels.flatten u c.units
      config := by
  have hget := get?_units_of_mem_configurable hu
  constructor
  · rw [load_of_levels hstudio hfree hf hu hlevels]
    simp only [tablesOf, ← stored_append, ← List.append_assoc]
    rfl
  · simp only [tablesOf, plan.store_eq_pure _ (hfree.opts hget), ← stored_append]
  · intro name p hp
    have hcap := (List.forall_mem_append.mp (hfree.exported hp)).1
    unfold memberOptions
    simp only [tablesOf, plan.store_eq_pure _ (hfree.opts hp), plan.store_eq_pure _ hcap, pure_bind,
      ← stored_append]

theorem addRelease_of_cycle {graph : Digraph} {path : List String}
    (h : graph.levelsFrom (graph.children u.name) = .error (.cycle path)) :
    (addRelease plan graph base u units config).outcome = .error (.cycle path) := by
  unfold addRelease load
  simp only [Logged.outcome_bind, Logged.outcome_lift, h, Failure.error_bind]

/-! ## Every turn of a configuration -/

/-- The default rules give the options that every unit starts from. -/
theorem base_of_start (hfree : WithoutCommands c defaults)
    (h : (start plan c defaults).outcome = .ok (base, config)) :
    base = plan.target.stored initialOptions defaults := by
  obtain ⟨⟨rules, hbase⟩, _⟩ := start_ok h
  rw [outcome_storeRules_of_commandFree _ _ _ hfree.defaults] at hbase
  cases hbase
  rfl

/-- The rules from outside a unit hold no commands. -/
theorem LoadOrder.commandFree {ds : List SourceUnit} (h : LoadOrder c u ds)
    (hfree : WithoutCommands c defaults) :
    ∀ rule ∈ defaults ++ ds.flatMap exportedRules, CommandFree rule.value.toList := by
  refine List.forall_mem_append.mpr ⟨hfree.defaults, ?_⟩
  intro rule hrule
  obtain ⟨d, hd, hin⟩ := List.mem_flatMap.mp hrule
  have hget := ((h.mem_iff d).mp hd).1
  exact hfree.exported (Context.get?_releases.mp hget).1 rule hin

/-- **The options of a unit come from the default rules, from what it depends on, and from itself.**  In
    a repository without commands, the tables of options that the turn of a unit of release goes through
    are those that are left by rules stored afresh: first the default rules, then the rules exported by
    what the unit depends on, in load order, then its own exported rules; after these its internal rules;
    and for a package of a group the internal and the exported rules of the package in the end.  The
    turn makes its flags from these tables.  Only if there is a cycle below the unit the turn fails with
    it. -/
theorem turn_storedAfresh (plan : Plan) (c : Context) (defaults : List Rule)
    (hstudio : isVisualStudio plan.uplid = false) (hfree : WithoutCommands c defaults)
    {base : Table String} {config₀ : BuildConfig}
    (hstart : (start plan c defaults).outcome = .ok (base, config₀))
    {before after : List SourceUnit} {u : SourceUnit}
    (hturn : configurable c = before ++ u :: after)
    {units : Table SourceUnit} {config : BuildConfig}
    (hrun : Run plan c.releaseGraph base before c.units config₀ units config) :
    (∃ below ds t, (∀ n, n ∈ below ↔ TransGen c.releaseGraph.Edge u.name n) ∧
      LoadOrder c u ds ∧ (∀ other, LoadOrder c u other → other = ds) ∧
      TurnTables.Afresh t plan c (defaults ++ ds.flatMap exportedRules) u ∧
      t.Carried plan c.releaseGraph base below (units.getD u.name u) units config ∧
      addRelease plan c.releaseGraph base (units.getD u.name u) units config
        = addFrom plan t below u units config) ∨
    (∃ n, TransGen c.releaseGraph.Edge u.name n ∧ c.releaseGraph.OnCycle n) ∧
      ∃ path, (addRelease plan c.releaseGraph base (units.getD u.name u) units config).outcome
        = .error (.cycle path) := by
  have hu : u ∈ configurable c := by
    rw [hturn]
    exact List.mem_append_right _ List.mem_cons_self
  have hbefore : ∀ v ∈ before, v ∈ configurable c := by
    intro v hv
    rw [hturn]
    exact List.mem_append_left _ hv
  have hf := (faithful_start hstart).run (SameUnits.refl _) hbefore hrun
  -- The turns before have replaced no rules, as there are no commands in them.
  obtain rfl : units = c.units := (stable_units plan hfree).run rfl hrun
  obtain rfl := base_of_start hfree hstart
  have hget := get?_units_of_mem_configurable hu
  have hsame : c.units.getD u.name u = u := by
    rw [Table.getD, hget, Option.getD_some]
  rw [hsame]
  rcases Digraph.levelsFrom_children c.releaseGraph u.name with
    ⟨levels, hlevels, hbelow⟩ | ⟨⟨path, hfail⟩, hcyc⟩
  · have horder := loadOrder_filterMap hbelow
    have hcarried := tablesOf_carried hstudio hfree hf hu hlevels
    exact Or.inl ⟨levels.flatten, _, _, hbelow.mem_iff, horder, fun _ => horder.unique,
      tablesOf_afresh plan hfree hget (horder.commandFree hfree), hcarried, hcarried.addRelease_eq⟩
  · exact Or.inr ⟨hcyc, path, addRelease_of_cycle hfail⟩

/-! ## A plan without flags -/

/-- A plan for no platform in particular. -/
def plainPlan : Plan :=
  { style := .gnu, uplid := {}, ufid := {}, shell := Shell.echo, environment := ∅ }

/-- The options that flags are read from. -/
def flagKeys : List String :=
  ["CXX", "CC", "CXXLINK", "COMPONENT_BDEBUILD_CXXFLAGS", "COMPONENT_BDEBUILD_CFLAGS",
    "COMPONENT_BDEBUILD_LDFLAGS", "TESTDRIVER_BDEBUILD_CXXFLAGS", "TESTDRIVER_BDEBUILD_CFLAGS"]

/-- Rules that leave the flags empty. -/
def emptyFlagRules : List Rule := flagKeys.map fun key => ⟨.add, {}, {}, key, ""⟩

/-- The options that these rules leave, with some more. -/
def optionsWith (more : List (String × String)) : Table String :=
  .ofList (("BDE_CXXINCLUDES", "$(BDE_CXXINCLUDE)") :: flagKeys.map (fun key => (key, "")) ++ more)

/-- Their values, after some that were known before. -/
def valuesWith (known more : List (String × String)) : Table String :=
  .ofList (known ++ ("BDE_CXXINCLUDES", "") :: flagKeys.map (fun key => (key, "")) ++ more)

theorem stored_emptyFlagRules :
    plainPlan.target.stored initialOptions emptyFlagRules = optionsWith [] :=
  Table.ext (by decide +kernel)

/-- The values of what dependencies export, if they export nothing. -/
theorem evaluate_emptyFlags : (plainPlan.evaluate [] (optionsWith []) ∅).outcome
    = .ok (valuesWith [] []) := by cbv

/-- A configuration from these rules starts with the options that they leave, in any repository. -/
theorem exists_start_plain (hfree : WithoutCommands c emptyFlagRules) : ∃ config,
    (start plainPlan c emptyFlagRules).outcome = .ok (optionsWith [], config) := by
  obtain ⟨flags, hflags⟩ := Failure.exists_of_isOk (show (BuildFlags.ofExports plainPlan.style
    (valuesWith [] []) (valuesWith [] []) [] []).isOk = true by cbv)
  unfold start
  rw [Logged.outcome_bind, outcome_storeRules_of_commandFree _ _ _ hfree.defaults,
    stored_emptyFlagRules, Failure.ok_bind, Logged.outcome_bind, evaluate_emptyFlags, Failure.ok_bind,
    Logged.outcome_bind, Logged.outcome_lift, hflags]
  exact ⟨_, rfl⟩

/-- Where no rules are loaded for a unit and it has none itself, its turn comes down to entering it.
    `known` is the place of the unit, as an option. -/
theorem exists_addRelease_plain (hfree : WithoutCommands c emptyFlagRules) (hf : Faithful c config)
    (hu : u ∈ configurable c) {levels : List (List String)}
    (hlevels : c.releaseGraph.levelsFrom (c.releaseGraph.children u.name) = .ok levels)
    (hrules : (levels.flatten.filterMap (loadedUnit? c)).flatMap exportedRules = [])
    (hexported : exportedRules u = []) (hopts : u.opts = []) (known : List (String × String))
    (hknown : location u = .ofList known)
    (hvalues : (plainPlan.evaluate [] (optionsWith []) (.ofList known)).outcome
      = .ok (valuesWith known []))
    (hsupported : isUnsupported (valuesWith known []) = false)
    (hflags : (releaseFlags plainPlan u.name (valuesWith [] []) (valuesWith known [])
      (valuesWith known [])).isOk = true) :
    ∃ flags, ∀ config', (enter plainPlan u levels.flatten (memberOptions plainPlan (optionsWith []))
        flags c.units config).outcome = .ok config' →
      (addRelease plainPlan c.releaseGraph (optionsWith []) u c.units config).outcome
        = .ok (c.units, config') := by
  have hload := load_of_values rfl hfree hf hu hlevels hrules evaluate_emptyFlags
  rw [hexported] at hload
  rw [← hknown] at hvalues
  obtain ⟨flags, hflags⟩ := Failure.exists_of_isOk hflags
  have hinternal : (plainPlan.store (optionsWith []) u.opts).outcome = .ok (optionsWith [], []) := by
    rw [hopts]
    rfl
  exact ⟨flags, fun config' henter => addRelease_ok.mpr ⟨_, _, hload, hvalues,
    Or.inr ⟨hsupported, _, [], _, flags, hinternal, hvalues, hflags, henter⟩⟩⟩

/-- A package without rules is configured, given the places of its group and of itself. -/
theorem exists_inner_plain {p : SourceUnit} (known : List (String × String))
    (hknown : (location u).set (locationKey p.name) p.path = .ofList known)
    (hvalues : (plainPlan.evaluate [] (optionsWith []) (.ofList known)).outcome
      = .ok (valuesWith known []))
    (hsupported : isUnsupported (valuesWith known []) = false)
    (hflags : (BuildFlags.ofOptions plainPlan.style (valuesWith known [])).isOk = true) :
    ∃ k, (inner? plainPlan (optionsWith []) (location u) p).outcome = .ok (some k) := by
  obtain ⟨flags, hflags⟩ := Failure.exists_of_isOk hflags
  exact exists_inner? (hknown ▸ hvalues) hsupported hflags

/-- Whether there are commands is decided entry by entry. -/
theorem withoutCommands_of_entries (hdefaults : ∀ rule ∈ defaults, CommandFree rule.value.toList)
    (hunits : ∀ entry ∈ c.units.entries, ∀ rule ∈ exportedRules entry.2 ++ entry.2.opts,
      CommandFree rule.value.toList) : WithoutCommands c defaults where
  defaults := hdefaults
  exported := fun _ _ hu rule hrule =>
    hunits _ (Table.get?_eq_some_iff.mp hu) rule (List.mem_append_left _ hrule)
  opts := fun _ _ hu rule hrule =>
    hunits _ (Table.get?_eq_some_iff.mp hu) rule (List.mem_append_right _ hrule)

/-! ## A tool, its libraries and a third-party directory -/

/-- A core library with an exported flag, and one that is for shared objects only. -/
def coreLibrary : SourceUnit :=
  { name := "core", path := "/r/core", kind := .standAlone,
    defs := [⟨.add, {}, {}, "CXX", "-core"⟩, ⟨.add, {}, ⟨["shr"]⟩, "CXX", "-shared"⟩] }

/-- A library above the core, with an exported flag of its own. -/
def upperLibrary : SourceUnit :=
  { name := "aux", path := "/r/aux", kind := .standAlone, deps := ["core"],
    defs := [⟨.add, {}, ⟨["dbg"]⟩, "CXX", "-aux"⟩] }

/-- A tool that uses a library, a third-party directory and a name from outside. -/
def tool : SourceUnit :=
  { name := "tool", path := "/r/tool", kind := .application, deps := ["aux", "zip", "libc"] }

/-- The tool stands before its libraries in the repository. -/
def toolRepository : Context :=
  ((((Context.empty "/r").put tool).put upperLibrary).put coreLibrary).put
    { name := "zip", path := "/r/zip", kind := .thirdParty }

/-- A plan for shared objects with debug information. -/
def sharedPlan : Plan := { plainPlan with ufid := ⟨["dbg", "shr"]⟩ }

/-- The tool is configured with the flags of the core library before those of the library above it,
    although that one comes first by name, and without those for shared objects. -/
theorem turn_storedAfresh_tool :
    WithoutCommands toolRepository emptyFlagRules ∧ ∃ base config below t,
      (start sharedPlan toolRepository emptyFlagRules).outcome = .ok (base, config) ∧
      configurable toolRepository = [] ++ tool :: [upperLibrary, coreLibrary] ∧
      TurnTables.Afresh t sharedPlan toolRepository
        (emptyFlagRules ++ [coreLibrary, upperLibrary].flatMap exportedRules) tool ∧
      t.exported.get? "CXX" = some "-core -aux" ∧
      addRelease sharedPlan toolRepository.releaseGraph base tool toolRepository.units config
        = addFrom sharedPlan t below tool toolRepository.units config := by
  have hfree : WithoutCommands toolRepository emptyFlagRules :=
    withoutCommands_of_entries (by decide +kernel) (by decide +kernel)
  obtain ⟨⟨base, config⟩, hstart⟩ := Failure.exists_of_isOk
    (show (start sharedPlan toolRepository emptyFlagRules).outcome.isOk = true by cbv)
  have hturn : configurable toolRepository = [] ++ tool :: [upperLibrary, coreLibrary] := rfl
  have hlevels : toolRepository.releaseGraph.levelsFrom (toolRepository.releaseGraph.children tool.name)
      = .ok [["core", "libc", "zip"], ["aux"]] := by cbv
  have hbelow := Digraph.levelsBelow_of_levelsFrom hlevels
  have hloaded : LoadOrder toolRepository tool [coreLibrary, upperLibrary] := loadOrder_filterMap hbelow
  rcases turn_storedAfresh sharedPlan toolRepository emptyFlagRules rfl hfree hstart hturn
    (.done _ _) with ⟨below, ds, t, _, _, hunique, hafresh, _, heq⟩ | ⟨⟨n, hn, hcyc⟩, _⟩
  · rw [← hunique _ hloaded] at hafresh
    have hexported : t.exported.get? "CXX" = some "-core -aux" := by
      rw [hafresh.exported.unique (storedAfresh_stored sharedPlan (by decide +kernel))]
      decide +kernel
    exact ⟨hfree, base, config, below, t, hstart, hturn, hafresh, hexported, heq⟩
  · obtain ⟨k, hk⟩ := hbelow.longest n ((hbelow.mem_iff n).mpr hn)
    exact absurd hcyc hk.not_onCycle

end BuildMeta.BuildConfig
