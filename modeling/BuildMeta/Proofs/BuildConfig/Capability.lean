import BuildMeta.Proofs.BuildConfig.LoadOrder
import BuildMeta.Proofs.Options.Solution

/-!
# `Proofs.BuildConfig.Capability` — which units are configured

A unit of release is left out exactly if its own option `CAPABILITY` comes out as `NEVER`
(`exists_turn`).  The rules of what it depends on are stored before its own (`load_key`), so `NEVER` is
handed on to it as long as no other rule changes the option after that (`HandedOn.get?_eq`).  A unit
that sets the option itself may thus be configured without what it depends on.
-/

namespace BuildMeta.BuildConfig

open Options Relation

variable {plan : Plan} {graph : Digraph} {base options options' : Table String} {u v : SourceUnit}
  {units units' : Table SourceUnit} {config config' : BuildConfig} {key name : String}
  {names : List String} {c : Context} {defaults : List Rule}

/-! ## Configured units -/

/-- A name stands for a unit of the configuration. -/
def IsConfigured (config : BuildConfig) (name : String) : Prop :=
  name ∈ config.groups.keys ∨ name ∈ config.standAlones.keys ∨ name ∈ config.thirdParties.keys

/-- A step configures its unit, unless this is not supported, and nothing else. -/
theorem isConfigured_step (hunits : SameUnits c.units units) (hu : u ∈ configurable c)
    (h : (addRelease plan graph base (units.getD u.name u) units config).outcome
      = .ok (units', config')) :
    ∃ loaded values,
      (load plan graph base (units.getD u.name u) units config).outcome = .ok (loaded, units') ∧
      (plan.evaluate [] loaded.exported (location u)).outcome = .ok values ∧
      ∀ name, IsConfigured config' name ↔
        IsConfigured config name ∨ name = u.name ∧ isUnsupported values = false := by
  obtain ⟨cap, defs, hsame⟩ := hunits.getD (get?_units_of_mem_configurable hu)
  rw [hsame] at h ⊢
  obtain ⟨loaded, values, hload, hvalues, hcase⟩ := addRelease_ok.mp h
  refine ⟨loaded, values, hload, hvalues, fun name => ?_⟩
  unfold IsConfigured
  rcases hcase with ⟨hskip, rfl⟩ | ⟨hsupported, internal, _, _, flags, _, _, _, henter⟩
  · simp [hskip]
  · have hname : (withExported u cap defs).name = u.name := rfl
    rcases enter_ok henter with ⟨_, _, _, _, _, _, _, _, rfl⟩ | ⟨_, _, _, _, rfl⟩
    · simp only [hname, Table.mem_keys_set, hsupported, and_true]
      rw [or_assoc, or_comm]
    · simp only [hname, Table.mem_keys_set, hsupported, and_true]
      rw [or_assoc, or_left_comm, or_comm]

/-- A run changes nothing for names whose turn it is not. -/
theorem isConfigured_run {us : List SourceUnit} (hunits : SameUnits c.units units)
    (hus : ∀ u ∈ us, u ∈ configurable c)
    (h : Run plan graph base us units config units' config') (hname : name ∉ us.map SourceUnit.name) :
    IsConfigured config' name ↔ IsConfigured config name := by
  induction h with
  | done => exact Iff.rfl
  | step hstep _ ih =>
    rw [List.map_cons, List.mem_cons, not_or] at hname
    obtain ⟨_, _, _, _, hone⟩ := isConfigured_step hunits (hus _ List.mem_cons_self) hstep
    rw [ih ((stable_sameUnits plan c.units).addRelease hunits hstep)
      (fun w hw => hus w (List.mem_cons_of_mem _ hw)) hname.2, hone]
    exact or_iff_left fun h => hname.1 h.1

/-! ## Turns -/

/-- In the course of making a configuration, a unit's exported options come out as `exported` when its
    turn comes, and their values as `values`. -/
inductive Turn (plan : Plan) (c : Context) (defaults : List Rule) (u : SourceUnit) :
    Table String → Table String → Prop
  | intro {base : Table String} {config₀ config : BuildConfig} {before after : List SourceUnit}
      {units units' : Table SourceUnit} {loaded : Loaded} {values : Table String}
      (hstart : (start plan c defaults).outcome = .ok (base, config₀))
      (hturn : configurable c = before ++ u :: after)
      (hrun : Run plan c.releaseGraph base before c.units config₀ units config)
      (hload : (load plan c.releaseGraph base (units.getD u.name u) units config).outcome
        = .ok (loaded, units'))
      (hvalues : (plan.evaluate [] loaded.exported (location u)).outcome = .ok values) :
      Turn plan c defaults u loaded.exported values

theorem Turn.evaluate {exported values : Table String} (h : Turn plan c defaults u exported values) :
    (plan.evaluate [] exported (location u)).outcome = .ok values := by
  obtain ⟨_, _, _, _, hvalues⟩ := h
  exact hvalues

/-- **Every unit has its turn, which decides whether it is configured.** -/
theorem exists_turn (h : (make plan c defaults).outcome = .ok config) (hu : u ∈ configurable c) :
    ∃ exported values, Turn plan c defaults u exported values ∧
      (IsConfigured config u.name ↔ isUnsupported values = false) := by
  obtain ⟨base, config₀, unitsEnd, configured, hstart, hrun, rfl⟩ := make_ok.mp h
  obtain ⟨before, after, hturn⟩ := List.append_of_mem hu
  obtain ⟨hnotBefore, hafter, hmem⟩ := configurable_split hturn
  rw [hturn] at hrun
  obtain ⟨units, config, hbefore, hrest⟩ := run_append.mp hrun
  cases hrest with
  | step hstep hrest =>
    have hunits := (stable_sameUnits plan c.units).run (SameUnits.refl _) hbefore
    obtain ⟨loaded, values, hload, hvalues, hone⟩ := isConfigured_step hunits hu hstep
    refine ⟨loaded.exported, values, .intro hstart hturn hbefore hload hvalues, ?_⟩
    have hstarted : ¬ IsConfigured config u.name := by
      rw [isConfigured_run (SameUnits.refl _) (fun v hv => hmem v (Or.inl hv)) hbefore hnotBefore]
      obtain ⟨_, _, hthird, hgroups, halones, _⟩ := start_ok hstart
      unfold IsConfigured
      rw [hthird, hgroups, halones, Table.mem_keys_iff (t := c.releases.filter _)]
      simp only [Table.get?_filter_eq_some_iff, (mem_configurable.mp hu).1]
      simpa using (mem_configurable.mp hu).2
    -- The names are distinct, so neither the turns before nor those after concern this one.
    show IsConfigured configured u.name ↔ _
    rw [isConfigured_run ((stable_sameUnits plan c.units).addRelease hunits hstep)
      (fun v hv => hmem v (Or.inr hv)) hrest hafter, hone]
    simp [hstarted]

/-! ## One option of a unit -/

/-- The rules exported by a unit that set an option. -/
def keyRules (target : Target) (key : String) (u : SourceUnit) : List Rule :=
  (exportedRules u).filter (target.sets key)

/-- The rules loaded under a name that set an option. -/
def keyRulesAt (target : Target) (key : String) (c : Context) (name : String) : List Rule :=
  ((loadedUnit? c name).map (keyRules target key)).getD []

/-- No exported rule that sets the option holds a command. -/
def PlainKey (target : Target) (key : String) (units : Table SourceUnit) : Prop :=
  ∀ ⦃name u⦄, units.get? name = some u → ∀ rule ∈ keyRules target key u, CommandFree rule.value.toList

/-- Two tables hold the same units, as far as rules that set an option are concerned. -/
def SameKey (target : Target) (key : String) (units units' : Table SourceUnit) : Prop :=
  ∀ name, (units'.get? name).map (keyRules target key) = (units.get? name).map (keyRules target key)

theorem SameKey.plainKey (h : SameKey plan.target key units units')
    (hplain : PlainKey plan.target key units) : PlainKey plan.target key units' := by
  intro name u' hu' rule hrule
  have hname := h name
  rw [hu', Option.map_some, eq_comm, Option.map_eq_some_iff] at hname
  obtain ⟨u, hu, hsame⟩ := hname
  exact hplain hu rule (hsame ▸ hrule)

/-- The exported rules of a unit change an option by a fold over those that set it. -/
theorem storeExported_key (hplain : PlainKey plan.target key units)
    {out : Table String × Table SourceUnit}
    (h : (storeExported plan units name options).outcome = .ok out) :
    ∃ u cap defs, units.get? name = some u ∧
      out.1.get? key = (keyRules plan.target key u).foldl combined (options.get? key) ∧
      out.2 = units.set name (withExported u cap defs) ∧
      keyRules plan.target key (withExported u cap defs) = keyRules plan.target key u := by
  obtain ⟨u, middle, cap, defs, hu, hcap, hdefs, hout⟩ := storeExported_ok.mp h
  have hfree : ∀ rule ∈ exportedRules u, plan.target.sets key rule = true →
      CommandFree rule.value.toList := fun rule hrule hsets =>
    hplain hu rule (List.mem_filter.mpr ⟨hrule, hsets⟩)
  obtain ⟨hget, hcap'⟩ := storeRules_key hcap fun rule hr => hfree rule (List.mem_append_left _ hr)
  obtain ⟨hget', hdefs'⟩ := storeRules_key hdefs fun rule hr => hfree rule (List.mem_append_right _ hr)
  refine ⟨u, cap, defs, hu, ?_, hout, ?_⟩
  · rw [hget', hget, keyRules, exportedRules, List.filter_append, List.foldl_append]
  · show ((cap ++ defs).filter (plan.target.sets key)) = ((u.cap ++ u.defs).filter _)
    rw [List.filter_append, List.filter_append, hcap', hdefs']

theorem stable_sameKey {units₀ : Table SourceUnit} (hplain : PlainKey plan.target key units₀) :
    Stable plan (SameKey plan.target key units₀) := by
  intro units name options out hunits h other
  obtain ⟨u, cap, defs, hu, _, hout, hsame⟩ := storeExported_key (hunits.plainKey hplain) h
  rw [hout, ← hunits other]
  exact map_get?_set hu hsame other

theorem SameKey.keyRules_eq (h : SameKey plan.target key c.units units)
    (hu : c.units.get? name = some u) (hv : units.get? name = some v) :
    keyRules plan.target key v = keyRules plan.target key u := by
  have hname := h name
  rw [hu, hv, Option.map_some, Option.map_some, Option.some.injEq] at hname
  exact hname

/-- What a unit depends on changes an option by a fold over the rules that set it, in turn. -/
theorem storeDependencies_key (hplain : PlainKey plan.target key c.units) (hf : Faithful c config)
    (hunits : SameKey plan.target key c.units units)
    (hnames : ∀ n ∈ names, n ∈ c.releaseGraph.nodes)
    (h : (storeDependencies plan config names units options).outcome = .ok (options', units')) :
    options'.get? key
      = (names.flatMap (keyRulesAt plan.target key c)).foldl combined (options.get? key) := by
  induction names generalizing units options with
  | nil =>
    cases h
    rfl
  | cons name rest ih =>
    have hrest := fun n hn => hnames n (List.mem_cons_of_mem _ hn)
    have hname := hnames name List.mem_cons_self
    rw [List.flatMap_cons, List.foldl_append]
    cases hloaded : loadedUnit? c name with
    | none =>
      rw [storeDependencies_cons_of_passedOver ((hf.isPassedOver_iff hname).mpr hloaded)] at h
      rw [keyRulesAt, hloaded]
      exact ih hunits hrest h
    | some d =>
      rw [storeDependencies_cons_of_not (hf.not_isPassedOver hname hloaded)] at h
      obtain ⟨out, hout, hmore⟩ := Logged.outcome_bind_eq_ok_iff.mp h
      obtain ⟨v, _, _, hv, hget, _, _⟩ := storeExported_key (hunits.plainKey hplain) hout
      rw [hunits.keyRules_eq (get?_units_of_loadedUnit? hloaded) hv] at hget
      rw [keyRulesAt, hloaded, Option.map_some, Option.getD_some, ← hget]
      exact ih (stable_sameKey hplain hunits hout) hrest hmore

/-- An option does not get the name of a debug information file. -/
def NamesNoDebugFile (plan : Plan) (key : String) : Prop :=
  isVisualStudio plan.uplid = true → key ≠ "BDE_CXXFLAGS" ∧ key ≠ "BDE_CFLAGS"

theorem get?_appendTo_of_ne {t t' : Table String} {k text : String} (h : appendTo t k text = .ok t')
    (hne : key ≠ k) : t'.get? key = t.get? key := by
  unfold appendTo at h
  split at h
  · cases h
    exact Table.get?_set_of_ne _ _ hne
  · cases h

/-- Naming debug files changes no option but those for the flags of the compilers, and these with
    Visual Studio only. -/
theorem get?_nameDebugFile {root : String} {named : Table String}
    (h : nameDebugFile plan root u options = .ok named) (hkey : NamesNoDebugFile plan key) :
    named.get? key = options.get? key := by
  unfold nameDebugFile at h
  by_cases hstudio : (!isVisualStudio plan.uplid) = true
  · rw [if_pos hstudio] at h
    cases h
    rfl
  · rw [if_neg hstudio] at h
    obtain ⟨hcxx, hc⟩ := hkey (by simpa using hstudio)
    obtain ⟨middle, hmiddle, hlast⟩ := Failure.bind_eq_ok_iff.mp h
    rw [get?_appendTo_of_ne hlast hc, get?_appendTo_of_ne hmiddle hcxx]

/-- An exported option of a unit is a fold over the rules that set it: those of what the unit depends
    on, by levels, then its own. -/
theorem load_key (hplain : PlainKey plan.target key c.units) (hf : Faithful c config)
    (hunits : SameKey plan.target key c.units units) (hu : u ∈ configurable c)
    (hdebug : NamesNoDebugFile plan key) {cap defs : List Rule} {loaded : Loaded}
    (h : (load plan c.releaseGraph base (withExported u cap defs) units config).outcome
      = .ok (loaded, units')) :
    c.releaseGraph.LevelsBelow u.name loaded.below ∧
    loaded.exported.get? key
      = (loaded.below.flatMap (keyRulesAt plan.target key c) ++ keyRules plan.target key u).foldl
          combined (base.get? key) := by
  obtain ⟨levels, options, unitsBelow, named, hlevels, hbelow, hdeps, hnamed, _, hexported⟩ :=
    load_ok.mp h
  have hlevelsBelow := Digraph.levelsBelow_of_levelsFrom hlevels
  have hunitsBelow := (stable_sameKey hplain).storeDependencies hunits hdeps
  obtain ⟨w, _, _, hw, hget, _, _⟩ := storeExported_key (hunitsBelow.plainKey hplain) hexported
  rw [hbelow]
  refine ⟨hlevelsBelow, ?_⟩
  rw [hget, hunitsBelow.keyRules_eq (get?_units_of_mem_configurable hu) hw,
    get?_nameDebugFile hnamed hdebug,
    storeDependencies_key hplain hf hunits (fun _ => hlevelsBelow.mem_nodes) hdeps, List.foldl_append]

/-! ## An option that is handed on -/

/-- Names that contribute nothing can be left out before the contributions are put together. -/
theorem flatMap_filter_of_nil {f : String → List Rule} {p : String → Bool}
    (h : ∀ n ∈ names, p n = false → f n = []) : (names.filter p).flatMap f = names.flatMap f := by
  induction names with
  | nil => rfl
  | cons n rest ih =>
    have hrest := ih fun m hm => h m (List.mem_cons_of_mem _ hm)
    cases hp : p n with
    | true => rw [List.filter_cons_of_pos hp, List.flatMap_cons, List.flatMap_cons, hrest]
    | false =>
      rw [List.filter_cons_of_neg (ne_true_of_eq_false hp), hrest, List.flatMap_cons,
        h n List.mem_cons_self hp, List.nil_append]

/-- An exported option, when the turn of a unit comes. -/
theorem Turn.get?_exported {exported values : Table String} (hplain : PlainKey plan.target key c.units)
    (hdebug : NamesNoDebugFile plan key) (hu : u ∈ configurable c)
    (h : Turn plan c defaults u exported values) :
    ∃ base config below, (start plan c defaults).outcome = .ok (base, config) ∧
      c.releaseGraph.LevelsBelow u.name below ∧
      exported.get? key = (below.flatMap (keyRulesAt plan.target key c) ++
        keyRules plan.target key u).foldl combined (base.get? key) := by
  obtain ⟨hstart, hturn, hrun, hload, _⟩ := h
  have hbefore : ∀ v ∈ _, v ∈ configurable c := fun v hv => hturn ▸ List.mem_append_left _ hv
  have hunits := (stable_sameUnits plan c.units).run (SameUnits.refl _) hrun
  have hkeys := (stable_sameKey hplain).run (fun _ => rfl) hrun
  have hf := (faithful_start hstart).run (SameUnits.refl _) hbefore hrun
  obtain ⟨cap, defs, hsame⟩ := hunits.getD (get?_units_of_mem_configurable hu)
  rw [hsame] at hload
  obtain ⟨hbelow, hget⟩ := load_key hplain hf hkeys hu hdebug hload
  exact ⟨_, _, _, hstart, hbelow, hget⟩

/-- An option reaches a unit from one that it depends on as it is: no other rule that is loaded for the
    unit sets it, it holds no name of a debug information file, and rules that set it hold no command. -/
structure HandedOn (plan : Plan) (c : Context) (u d : SourceUnit) (key : String) : Prop where
  others : ∀ e ∈ configurable c, e = u ∨ TransGen c.releaseGraph.Edge u.name e.name → e ≠ d →
    ¬ TransGen c.releaseGraph.Edge d.name e.name → keyRules plan.target key e = []
  plain : PlainKey plan.target key c.units
  debug : NamesNoDebugFile plan key

/-- **An option that is handed on has one value.**  If nothing that is loaded for the unit beyond
    its dependency sets the option, both turns evaluate it from equal texts. -/
theorem HandedOn.get?_eq {d : SourceUnit} {exported values exportedDep valuesDep : Table String}
    (h : HandedOn plan c u d key) (hu : u ∈ configurable c) (hd : d ∈ configurable c)
    (hdep : TransGen c.releaseGraph.Edge u.name d.name)
    (hturn : Turn plan c defaults u exported values)
    (hturnDep : Turn plan c defaults d exportedDep valuesDep) :
    exported.get? key = exportedDep.get? key := by
  obtain ⟨base, _, below, hstart, hbelow, hget⟩ := hturn.get?_exported h.plain h.debug hu
  obtain ⟨baseDep, _, lower, hstartDep, hlower, hgetDep⟩ := hturnDep.get?_exported h.plain h.debug hd
  rw [hstart, Except.ok.injEq, Prod.mk.injEq] at hstartDep
  obtain ⟨rfl, _⟩ := hstartDep
  -- A cycle below the unit would have stopped the search.
  have hacyc : ¬ TransGen c.releaseGraph.Edge d.name u.name := by
    intro hback
    obtain ⟨k, hk⟩ := hbelow.longest d.name ((hbelow.mem_iff _).mpr hdep)
    exact hk.not_onCycle (hback.trans hdep)
  -- What is loaded for the unit beyond its dependency does not set the option: neither its own rules
  -- nor those of the other names below it.
  have hself : keyRules plan.target key u = [] := by
    refine h.others u hu (Or.inl rfl) ?_ hacyc
    rintro rfl
    exact hacyc hdep
  have hnil : ∀ n ∈ below, decide (n ∈ lower ++ [d.name]) = false →
      keyRulesAt plan.target key c n = [] := by
    intro n hn hnot
    rw [decide_eq_false_iff_not, List.mem_append, List.mem_singleton, not_or, hlower.mem_iff] at hnot
    unfold keyRulesAt
    cases hloaded : loadedUnit? c n with
    | none => rfl
    | some e =>
      obtain ⟨he, hkind⟩ := loadedUnit?_eq_some_iff.mp hloaded
      obtain rfl := Context.named_releases he
      refine h.others e (mem_configurable.mpr ⟨he, hkind⟩) (Or.inr ((hbelow.mem_iff _).mp hn)) ?_ hnot.1
      rintro rfl
      exact hnot.2 rfl
  have hdepRules : keyRulesAt plan.target key c d.name = keyRules plan.target key d := by
    rw [keyRulesAt, loadedUnit?_eq_some_iff.mpr (mem_configurable.mp hd)]
    rfl
  rw [hget, hgetDep, hself, List.append_nil, ← flatMap_filter_of_nil hnil, hbelow.filter hlower hdep,
    List.flatMap_append, List.flatMap_cons, List.flatMap_nil, List.append_nil, hdepRules]

/-! ## Units that are left out -/

theorem isUnsupported_iff {values : Table String} :
    isUnsupported values = true ↔ values.get? "CAPABILITY" = some "NEVER" := by
  unfold isUnsupported
  rw [beq_iff_eq]

/-- Values agree where the texts do, and those of all names that these mention. -/
theorem value_of_agree {S T : Sources} {K : String → Prop} {value : String} (h : S.Value name value)
    (henv : T.environment = S.environment)
    (hpreset : ∀ key, K key → S.preset.get? key = none ∧ T.preset.get? key = none)
    (hoptions : ∀ key, K key → T.options.get? key = S.options.get? key)
    (hclosed : ∀ key text, K key → S.options.get? key = some text →
      ∀ m, Sources.Mentions text m → K m)
    (hname : K name) : T.Value name value := by
  induction h with
  | preset hp =>
    rw [(hpreset _ hname).1] at hp
    cases hp
  | option f hpend _ ih =>
    refine .option f ⟨(hpreset _ hname).2, (hoptions _ hname).trans hpend.2⟩ fun m hm => ih m hm ?_
    exact hclosed _ _ hname hpend.2 m (Sources.mentions_iff.mpr hm)
  | environment _ ho he =>
    exact .environment (hpreset _ hname).2 ((hoptions _ hname).trans ho) (henv ▸ he)
  | absent _ ho he =>
    exact .absent (hpreset _ hname).2 ((hoptions _ hname).trans ho) (henv ▸ he)

/-- An evaluation that succeeds gives every option its value. -/
theorem get?_evaluate {watched : List String} {known values : Table String} {text value : String}
    (h : (plan.evaluate watched options known).outcome = .ok values)
    (hkey : options.get? key = some text) :
    values.get? key = some value ↔ Sources.Value ⟨options, plan.environment, known⟩ key value := by
  rcases Sources.evaluate_settles ⟨options, plan.environment, known⟩ watched with
    ⟨results, hout, hmemo, hall⟩ | ⟨hfail, _⟩
  · obtain rfl : results = values := Except.ok.inj (hout.symm.trans h)
    obtain ⟨found, hfound⟩ := Table.mem_keys_iff.mp (hall key (Table.mem_keys_of_get? hkey))
    have hvalue := hmemo.sound hfound
    rw [hfound, Option.some.injEq]
    exact ⟨fun heq => heq ▸ hvalue, fun hv => hvalue.unique hv⟩
  · exact absurd (hfail.symm.trans h) (by simp)

theorem get?_location_of_ne (h : key ≠ locationKey u.name) : (location u).get? key = none := by
  cases hget : (location u).get? key with
  | none => rfl
  | some path =>
    have hmem := Table.mem_of_get?_ofList hget
    rw [List.mem_singleton, Prod.mk.injEq] at hmem
    exact absurd hmem.1 h

/-- A configured unit has a name among its recorded dependencies. -/
def DependsOn (config : BuildConfig) (name d : String) : Prop :=
  (∃ g, config.groups.get? name = some g ∧ d ∈ g.deps) ∨
  ∃ p, config.standAlones.get? name = some p ∧ d ∈ p.deps

/-- Recorded dependencies are units of release of the repository. -/
theorem Faithful.mem_releases_of_dependsOn (hf : Faithful c config) {d : String}
    (h : DependsOn config name d) : d ∈ c.releases.keys := by
  rcases h with ⟨g, hg, hd⟩ | ⟨p, hp, hd⟩
  · obtain ⟨u, hu, _, hdeps, _⟩ := hf.group hg
    rw [hdeps, hf.mem_innerDeps hu] at hd
    exact hd.2
  · obtain ⟨u, hu, _, _, hdeps⟩ := hf.standAlone hp
    rw [hdeps, hf.mem_innerDeps hu] at hd
    exact hd.2

/-- **Every unit is left out for its own `CAPABILITY` alone.**  A unit of release is configured
    unless the option `CAPABILITY`, among the options that it exports, comes out as `NEVER`.  So a
    recorded dependency is configured or was left out for its own value.  The value of a unit that
    is left out is handed on to the units that depend on it, and they are left out as well, as long
    as no rule that is loaded for them, and not for it, sets the option or another one on which its
    value depends. -/
theorem make_capability (plan : Plan) (c : Context) (defaults : List Rule) {config : BuildConfig}
    (h : (make plan c defaults).outcome = .ok config) :
    (∀ u ∈ configurable c, ∃ exported values, Turn plan c defaults u exported values ∧
      (IsConfigured config u.name ↔ values.get? "CAPABILITY" ≠ some "NEVER")) ∧
    (∀ name d, DependsOn config name d → IsConfigured config d ∨
      ∃ v ∈ configurable c, v.name = d ∧ ∃ exported values,
        Turn plan c defaults v exported values ∧ values.get? "CAPABILITY" = some "NEVER") ∧
    ∀ u ∈ configurable c, ∀ d ∈ configurable c, TransGen c.releaseGraph.Edge u.name d.name →
      ∀ exported values, Turn plan c defaults d exported values →
        "CAPABILITY" ∈ exported.keys → values.get? "CAPABILITY" = some "NEVER" →
        ∀ K : String → Prop, K "CAPABILITY" →
          (∀ key text, K key → exported.get? key = some text → ∀ m, Sources.Mentions text m → K m) →
          (∀ key, K key → HandedOn plan c u d key ∧
            key ≠ locationKey u.name ∧ key ≠ locationKey d.name) →
          ¬ IsConfigured config u.name := by
  have hturns : ∀ u ∈ configurable c, ∃ exported values, Turn plan c defaults u exported values ∧
      (IsConfigured config u.name ↔ values.get? "CAPABILITY" ≠ some "NEVER") := by
    intro u hu
    obtain ⟨exported, values, hturn, hiff⟩ := exists_turn h hu
    refine ⟨exported, values, hturn, ?_⟩
    rw [hiff, ← Bool.not_eq_true, isUnsupported_iff]
  refine ⟨hturns, ?_, ?_⟩
  · intro name d hdep
    have hf := faithful_make h
    obtain ⟨v, hv⟩ := Table.mem_keys_iff.mp (hf.mem_releases_of_dependsOn hdep)
    obtain rfl := Context.named_releases hv
    by_cases hkind : v.kind = .thirdParty
    · refine Or.inl (Or.inr (Or.inr (Table.mem_keys_iff.mpr ⟨v, ?_⟩)))
      rw [hf.thirdParties, Table.get?_filter_eq_some_iff, beq_iff_eq]
      exact ⟨hv, hkind⟩
    · have hmem := mem_configurable.mpr ⟨hv, hkind⟩
      obtain ⟨exported, values, hturn, hiff⟩ := hturns v hmem
      by_cases hnever : values.get? "CAPABILITY" = some "NEVER"
      · exact Or.inr ⟨v, hmem, rfl, exported, values, hturn, hnever⟩
      · exact Or.inl (hiff.mpr hnever)
  · intro u hu d hd hdep exportedDep valuesDep hturnDep hkey hnever K hcapability hclosed hK
    obtain ⟨exported, values, hturn, hiff⟩ := hturns u hu
    have hsame : ∀ key, K key → exported.get? key = exportedDep.get? key := fun key hk =>
      (hK key hk).1.get?_eq hu hd hdep hturn hturnDep
    obtain ⟨text, htext⟩ := Table.mem_keys_iff.mp hkey
    -- The values of the two units are settled by the same texts, so they agree.
    have hvalueDep := (get?_evaluate hturnDep.evaluate htext).mp hnever
    have hpreset : ∀ key, K key → (location d).get? key = none ∧ (location u).get? key = none :=
      fun key hk => ⟨get?_location_of_ne (hK key hk).2.2, get?_location_of_ne (hK key hk).2.1⟩
    have hvalue : Sources.Value ⟨exported, plan.environment, location u⟩ "CAPABILITY" "NEVER" :=
      value_of_agree (T := ⟨exported, plan.environment, location u⟩) hvalueDep rfl hpreset hsame
        hclosed hcapability
    have hnever' := (get?_evaluate hturn.evaluate ((hsame _ hcapability).trans htext)).mpr hvalue
    exact fun hconfigured => hiff.mp hconfigured hnever'

/-! ## A value that is overridden, and one that is handed on -/

/-- A rule that replaces the value of `CAPABILITY`. -/
def capability (value : String) : List Rule := [⟨.override, {}, {}, "CAPABILITY", value⟩]

/-- A unit that cannot be built. -/
def low : SourceUnit :=
  { name := "low", path := "/r/low", kind := .standAlone, cap := capability "NEVER" }

/-- A unit that depends on it and has a value of its own. -/
def own : SourceUnit :=
  { name := "own", path := "/r/own", kind := .standAlone, deps := ["low"],
    cap := capability "ALWAYS" }

/-- A unit that depends on it and says nothing. -/
def high : SourceUnit := { name := "high", path := "/r/high", kind := .standAlone, deps := ["low"] }

/-- The three units. -/
def overriding : Context := (((Context.empty "/r").put low).put own).put high

theorem overriding_free : WithoutCommands overriding emptyFlagRules :=
  withoutCommands_of_entries (by decide +kernel) (by decide +kernel)

theorem stored_low : plainPlan.target.stored (optionsWith []) (exportedRules low)
    = optionsWith [("CAPABILITY", "NEVER")] :=
  Table.ext (by decide +kernel)

/-- The lower unit forbids itself: its option is among those that it exports. -/
theorem load_low (hf : Faithful overriding config) :
    (load plainPlan overriding.releaseGraph (optionsWith []) low overriding.units config).outcome
      = .ok (⟨[], valuesWith [] [], optionsWith [("CAPABILITY", "NEVER")]⟩, overriding.units) := by
  have hlevels : overriding.releaseGraph.levelsFrom (overriding.releaseGraph.children low.name)
      = .ok [] := by cbv
  rw [← stored_low]
  exact load_of_values rfl overriding_free hf List.mem_cons_self hlevels rfl evaluate_emptyFlags

theorem evaluate_low :
    (plainPlan.evaluate [] (optionsWith [("CAPABILITY", "NEVER")]) (location low)).outcome
      = .ok (valuesWith [("LOW_LOCN", "/r/low")] [("CAPABILITY", "NEVER")]) := by
  rw [show location low = .ofList [("LOW_LOCN", "/r/low")] from Table.ext (by decide +kernel)]
  cbv

/-- The first unit is left out. -/
theorem addRelease_low (hf : Faithful overriding config) :
    (addRelease plainPlan overriding.releaseGraph (optionsWith []) low overriding.units config).outcome
      = .ok (overriding.units, config) :=
  addRelease_ok.mpr ⟨_, _, load_low hf, evaluate_low, Or.inl ⟨rfl, rfl⟩⟩

/-- What is loaded for the units above it. -/
theorem load_above (hf : Faithful overriding config) (hu : u ∈ configurable overriding)
    (hlevels : overriding.releaseGraph.levelsFrom (overriding.releaseGraph.children u.name)
      = .ok [["low"]]) :
    (load plainPlan overriding.releaseGraph (optionsWith []) u overriding.units config).outcome
      = .ok (⟨["low"], valuesWith [] [("CAPABILITY", "NEVER")],
          plainPlan.target.stored (optionsWith []) (exportedRules low ++ exportedRules u)⟩,
          overriding.units) := by
  have hvalues : (plainPlan.evaluate [] (plainPlan.target.stored (optionsWith []) (exportedRules low))
      ∅).outcome = .ok (valuesWith [] [("CAPABILITY", "NEVER")]) := by
    rw [stored_low]
    cbv
  exact load_of_values rfl overriding_free hf hu hlevels rfl hvalues

/-- The second unit is configured, as its own value is the last one. -/
theorem addRelease_own (hf : Faithful overriding config) :
    ∃ p, (addRelease plainPlan overriding.releaseGraph (optionsWith []) own overriding.units
        config).outcome
        = .ok (overriding.units, { config with standAlones := config.standAlones.set "own" p }) ∧
      p.deps = innerDeps config own := by
  have hload := load_above hf (List.mem_cons_of_mem _ List.mem_cons_self)
    (show overriding.releaseGraph.levelsFrom (overriding.releaseGraph.children own.name) = _ by cbv)
  have hstored : plainPlan.target.stored (optionsWith []) (exportedRules low ++ exportedRules own)
      = optionsWith [("CAPABILITY", "ALWAYS")] := Table.ext (by decide +kernel)
  have hvalues : (plainPlan.evaluate [] (optionsWith [("CAPABILITY", "ALWAYS")]) (location own)).outcome
      = .ok (valuesWith [("OWN_LOCN", "/r/own")] [("CAPABILITY", "ALWAYS")]) := by
    rw [show location own = .ofList [("OWN_LOCN", "/r/own")] from Table.ext (by decide +kernel)]
    cbv
  obtain ⟨flags, hflags⟩ := Failure.exists_of_isOk (show (releaseFlags plainPlan own.name
    (valuesWith [] [("CAPABILITY", "NEVER")])
    (valuesWith [("OWN_LOCN", "/r/own")] [("CAPABILITY", "ALWAYS")])
    (valuesWith [("OWN_LOCN", "/r/own")] [("CAPABILITY", "ALWAYS")])).isOk = true by cbv)
  rw [hstored] at hload
  exact ⟨_, addRelease_ok.mpr ⟨_, _, hload, hvalues,
    Or.inr ⟨rfl, _, [], _, flags, rfl, hvalues, hflags, rfl⟩⟩, rfl⟩

/-- The third unit is left out with the first. -/
theorem addRelease_high (hf : Faithful overriding config) :
    (addRelease plainPlan overriding.releaseGraph (optionsWith []) high overriding.units config).outcome
      = .ok (overriding.units, config) := by
  have hload := load_above hf (List.mem_cons_of_mem _ (List.mem_cons_of_mem _ List.mem_cons_self))
    (show overriding.releaseGraph.levelsFrom (overriding.releaseGraph.children high.name) = _ by cbv)
  have hvalues : (plainPlan.evaluate [] (optionsWith [("CAPABILITY", "NEVER")])
      (location high)).outcome
      = .ok (valuesWith [("HIGH_LOCN", "/r/high")] [("CAPABILITY", "NEVER")]) := by
    rw [show location high = .ofList [("HIGH_LOCN", "/r/high")] from Table.ext (by decide +kernel)]
    cbv
  rw [show exportedRules low ++ exportedRules high = exportedRules low from List.append_nil _,
    stored_low] at hload
  exact addRelease_ok.mpr ⟨_, _, hload, hvalues, Or.inl ⟨rfl, rfl⟩⟩

/-- The lower unit is left out of the configuration, and the unit above it, which overrides the
    option, is not. -/
theorem make_overriding : ∃ config,
    (make plainPlan overriding emptyFlagRules).outcome = .ok config ∧
    Turn plainPlan overriding emptyFlagRules low (optionsWith [("CAPABILITY", "NEVER")])
      (valuesWith [("LOW_LOCN", "/r/low")] [("CAPABILITY", "NEVER")]) ∧
    DependsOn config "own" "low" ∧ ¬ IsConfigured config "low" := by
  obtain ⟨config₀, hstart⟩ := exists_start_plain overriding_free
  have hf := faithful_start hstart
  obtain ⟨p, hown, hdeps⟩ := addRelease_own hf
  have hf' := hf.step (SameUnits.refl _) (List.mem_cons_of_mem _ List.mem_cons_self) hown
  have hrun : Run plainPlan overriding.releaseGraph (optionsWith []) [low, own, high] overriding.units
      config₀ overriding.units { config₀ with standAlones := config₀.standAlones.set "own" p } :=
    .step (addRelease_low hf) (.step hown (.step (addRelease_high hf') (.done _ _)))
  refine ⟨_, make_ok.mpr ⟨_, _, _, _, hstart, hrun, rfl⟩, ?_, ?_, ?_⟩
  · exact .intro hstart (List.nil_append _).symm (.done _ _) (load_low hf) evaluate_low
  · refine Or.inr ⟨p, Table.get?_set_self _ _ _, ?_⟩
    rw [hdeps, hf.mem_innerDeps (mem_configurable.mp
      (show own ∈ configurable overriding from List.mem_cons_of_mem _ List.mem_cons_self)).1]
    decide +kernel
  · obtain ⟨_, _, hthird, hgroups, halones, _⟩ := start_ok hstart
    unfold IsConfigured
    simp only [hthird, hgroups, halones, Table.mem_keys_set]
    decide +kernel

/-- **A recorded dependency may be missing**: a unit with a value of its own is configured although what
    it depends on is left out. -/
theorem dependency_left_out : ∃ config,
    (make plainPlan overriding emptyFlagRules).outcome = .ok config ∧
    DependsOn config "own" "low" ∧ ¬ IsConfigured config "low" := by
  obtain ⟨config, hmake, _, hdep, hlow⟩ := make_overriding
  exact ⟨config, hmake, hdep, hlow⟩

/-- The unit without a value of its own is left out with what it depends on. -/
theorem make_capability_high : ∃ config,
    (make plainPlan overriding emptyFlagRules).outcome = .ok config ∧
    HandedOn plainPlan overriding high low "CAPABILITY" ∧ ¬ IsConfigured config "high" := by
  obtain ⟨config, hmake, hturn, _, _⟩ := make_overriding
  have hbelow := Digraph.levelsBelow_of_levelsFrom (show overriding.releaseGraph.levelsFrom
    (overriding.releaseGraph.children high.name) = .ok [["low"]] by cbv)
  have hmem : ∀ e, e ∈ configurable overriding ↔ e = low ∨ e = own ∨ e = high := fun e => by
    rw [show configurable overriding = [low, own, high] from rfl]
    simp
  have hhanded : HandedOn plainPlan overriding high low "CAPABILITY" := by
    refine ⟨?_, fun _ _ hu rule hrule => ?_, fun _ => by decide⟩
    · intro e he hloaded hne _
      rcases (hmem e).mp he with rfl | rfl | rfl
      · exact absurd rfl hne
      · rcases hloaded with heq | hpath
        · exact absurd heq (by decide +kernel)
        · exact absurd ((hbelow.mem_iff _).mpr hpath) (by decide +kernel)
      · rfl
    · exact overriding_free.exported hu rule (List.mem_filter.mp hrule).1
  refine ⟨config, hmake, hhanded, ?_⟩
  refine (make_capability plainPlan overriding emptyFlagRules hmake).2.2 high
    ((hmem high).mpr (Or.inr (Or.inr rfl))) low ((hmem low).mpr (Or.inl rfl))
    ((hbelow.mem_iff "low").mp List.mem_cons_self) _ _ hturn (by decide +kernel) rfl
    (· = "CAPABILITY") rfl ?_ ?_
  · rintro _ text rfl htext m hm
    obtain rfl : "NEVER" = text := Option.some.inj htext
    have hpieces : pieces "NEVER" = "NEVER".toList.map .char := by decide +kernel
    rw [Sources.mentions_iff, hpieces, List.mem_map] at hm
    obtain ⟨_, _, hchar⟩ := hm
    cases hchar
  · rintro _ rfl
    exact ⟨hhanded, by decide +kernel, by decide +kernel⟩

end BuildMeta.BuildConfig
