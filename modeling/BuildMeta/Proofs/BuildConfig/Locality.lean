import BuildMeta.Proofs.BuildConfig.BuildOrder
import BuildMeta.Proofs.BuildConfig.Capability
import BuildMeta.Proofs.BuildConfig.Entries
import BuildMeta.Proofs.Digraph.Agreement
import Mathlib

/-!
# `Proofs.BuildConfig.Locality` — a unit's entries depend on what it can reach

Two repositories may agree on a unit of release, on its packages and on all that it depends on
(`AgreeOn`), and differ everywhere else.  Then what is loaded for the unit is the same in both
(`load_of_agree`), and so are the entries that its turn writes (`enter_of_agree`).  As no other turn
touches these, the two configurations say the same of the unit (`make_of_agree`).  The one thing that
reaches a unit from outside is the root directory, from which Visual Studio builds name the debug
information file of the unit (`make_debug_file_differs`).
-/

namespace BuildMeta

/-! ## Sets of names in order -/

/-- The unit with its sets of names in order. -/
def SourceUnit.ordered (u : SourceUnit) : SourceUnit :=
  { u with members := Text.sortedSet u.members, deps := Text.sortedSet u.deps }

/-- The group with its sets of names in order. -/
def GroupConfig.ordered (g : GroupConfig) : GroupConfig :=
  { g with members := Text.sortedSet g.members, deps := Text.sortedSet g.deps }

/-- The package with its dependencies in order. -/
def PackageConfig.ordered (p : PackageConfig) : PackageConfig :=
  { p with deps := Text.sortedSet p.deps }

/-- The package with its dependencies in order. -/
def InnerConfig.ordered (p : InnerConfig) : InnerConfig := { p with deps := Text.sortedSet p.deps }

/-- The unit with other members and dependencies. -/
def SourceUnit.relisted (u : SourceUnit) (members deps : List String) : SourceUnit :=
  { u with members, deps }

@[simp] theorem SourceUnit.members_relisted (u : SourceUnit) (members deps : List String) :
    (u.relisted members deps).members = members := rfl

@[simp] theorem SourceUnit.deps_relisted (u : SourceUnit) (members deps : List String) :
    (u.relisted members deps).deps = deps := rfl

/-- Units that are the same in order differ in the order of their members and dependencies at most. -/
theorem SourceUnit.exists_of_ordered {u v : SourceUnit} (h : u.ordered = v.ordered) :
    ∃ members deps, v = u.relisted members deps ∧ (∀ m, m ∈ u.members ↔ m ∈ members) ∧
      ∀ d, d ∈ u.deps ↔ d ∈ deps := by
  refine ⟨v.members, v.deps, ?_, fun m => ?_, fun d => ?_⟩
  · calc v = v.ordered.relisted v.members v.deps := rfl
      _ = u.ordered.relisted v.members v.deps := by rw [h]
      _ = u.relisted v.members v.deps := rfl
  · rw [← Text.mem_sortedSet, show Text.sortedSet u.members = Text.sortedSet v.members from
      congrArg SourceUnit.members h, Text.mem_sortedSet]
  · rw [← Text.mem_sortedSet, show Text.sortedSet u.deps = Text.sortedSet v.deps from
      congrArg SourceUnit.deps h, Text.mem_sortedSet]

namespace BuildConfig

open Options Relation

variable {plan : Plan} {base : Table String} {u v : SourceUnit} {units units' : Table SourceUnit}
  {config config' : BuildConfig} {name : String} {names : List String} {c c' : Context}
  {defaults : List Rule}

/-! ## Agreement -/

/-- Two repositories say the same of a unit of release, of its packages and of all that it depends on,
    also of which of these names are those of units.  Sets of names may stand in another order. -/
structure AgreeOn (c c' : Context) (name : String) : Prop where
  releases : ∀ n, c.releaseGraph.Reach name n →
    (c.releases.get? n).map SourceUnit.ordered = (c'.releases.get? n).map SourceUnit.ordered
  packages : ∀ u, c.releases.get? name = some u → u.kind = .group → ∀ m ∈ u.members,
    (c.units.get? m).map SourceUnit.ordered = (c'.units.get? m).map SourceUnit.ordered

theorem AgreeOn.exists_of_releases (h : AgreeOn c c' name) {n : String}
    (hn : c.releaseGraph.Reach name n) (hu : c.releases.get? n = some u) :
    ∃ v, c'.releases.get? n = some v ∧ u.ordered = v.ordered := by
  have hsame := h.releases n hn
  rw [hu, Option.map_some, eq_comm, Option.map_eq_some_iff] at hsame
  obtain ⟨v, hv, heq⟩ := hsame
  exact ⟨v, hv, heq.symm⟩

theorem AgreeOn.mem_keys_iff (h : AgreeOn c c' name) {n : String}
    (hn : c.releaseGraph.Reach name n) : n ∈ c.releases.keys ↔ n ∈ c'.releases.keys := by
  have hsame := congrArg Option.isSome (h.releases n hn)
  rw [Option.isSome_map, Option.isSome_map] at hsame
  rw [← Table.has_iff, ← Table.has_iff, Table.has, Table.has, hsame]

/-- The graphs of the units of release agree below the unit. -/
theorem AgreeOn.releaseGraph (h : AgreeOn c c' name) :
    Digraph.AgreeBelow c.releaseGraph c'.releaseGraph name := by
  intro m hm child
  rw [Context.edge_releaseGraph, Context.edge_releaseGraph]
  have hsame := h.releases m hm
  cases hu : c.releases.get? m with
  | none =>
    rw [hu, Option.map_none, eq_comm, Option.map_eq_none_iff] at hsame
    simp [hsame]
  | some u =>
    obtain ⟨v, hv, hordered⟩ := h.exists_of_releases hm hu
    obtain ⟨_, _, rfl, _, hdeps⟩ := SourceUnit.exists_of_ordered hordered
    simp [hv, hdeps]

/-! ## What is loaded -/

/-- Two repositories that agree on a unit load the same rules for it, or none in both. -/
theorem map_exportedRules_loadedUnit?
    (h : (c.releases.get? name).map SourceUnit.ordered
      = (c'.releases.get? name).map SourceUnit.ordered) :
    (loadedUnit? c name).map exportedRules = (loadedUnit? c' name).map exportedRules := by
  have hrules : ∀ o : Option SourceUnit, (o.filter (·.kind != .thirdParty)).map exportedRules
      = ((o.map SourceUnit.ordered).filter (·.kind != .thirdParty)).map exportedRules := by
    intro o
    cases o with
    | none => rfl
    | some u =>
      have hkind : u.ordered.kind = u.kind := rfl
      rw [Option.map_some, Option.filter_some, Option.filter_some, hkind]
      split <;> rfl
  unfold loadedUnit?
  rw [hrules, h, ← hrules]

/-- So they load the same rules for a list of names on which they agree. -/
theorem flatMap_exportedRules_of_agree
    (h : ∀ n ∈ names, (c.releases.get? n).map SourceUnit.ordered
      = (c'.releases.get? n).map SourceUnit.ordered) :
    (names.filterMap (loadedUnit? c)).flatMap exportedRules
      = (names.filterMap (loadedUnit? c')).flatMap exportedRules := by
  induction names with
  | nil => rfl
  | cons name rest ih =>
    have hrest := ih fun n hn => h n (List.mem_cons_of_mem _ hn)
    have hname := map_exportedRules_loadedUnit? (h name List.mem_cons_self)
    cases hloaded : loadedUnit? c name with
    | none =>
      rw [hloaded, Option.map_none, eq_comm, Option.map_eq_none_iff] at hname
      rw [List.filterMap_cons_none hloaded, List.filterMap_cons_none hname, hrest]
    | some d =>
      rw [hloaded, Option.map_some, eq_comm, Option.map_eq_some_iff] at hname
      obtain ⟨d', hd', hrules⟩ := hname
      rw [List.filterMap_cons_some hloaded, List.filterMap_cons_some hd', List.flatMap_cons,
        List.flatMap_cons, hrules, hrest]

/-- The debug file depends on the root with Visual Studio only. -/
theorem nameDebugFile_congr {root root' : String}
    (hroot : isVisualStudio plan.uplid = true → root = root') (options : Table String) :
    nameDebugFile plan root u options = nameDebugFile plan root' u options := by
  cases hstudio : isVisualStudio plan.uplid with
  | true => rw [hroot hstudio]
  | false =>
    have hkeep : ∀ root, nameDebugFile plan root u options = .ok options := by
      intro root
      unfold nameDebugFile
      rw [hstudio]
      rfl
    rw [hkeep root, hkeep root']

/-- **What is loaded for a unit is the same in repositories that agree on it.** -/
theorem load_of_agree (hfree : WithoutCommands c []) (hfree' : WithoutCommands c' [])
    (hf : Faithful c config) (hf' : Faithful c' config')
    (hroot : isVisualStudio plan.uplid = true → config.root = config'.root)
    (hu : u ∈ configurable c) (hv : v ∈ configurable c') (hsame : u.ordered = v.ordered)
    (hagree : AgreeOn c c' u.name) {loaded loaded' : Loaded}
    (h : (load plan c.releaseGraph base u c.units config).outcome = .ok (loaded, c.units))
    (h' : (load plan c'.releaseGraph base v c'.units config').outcome = .ok (loaded', c'.units)) :
    loaded = loaded' := by
  have hget := get?_units_of_mem_configurable hu
  have hget' := get?_units_of_mem_configurable hv
  obtain ⟨_, _, rfl, _, _⟩ := SourceUnit.exists_of_ordered hsame
  obtain ⟨levels, options, _, named, hlevels, hbelow, hdeps, hnamed, hvalues, hexported⟩ := load_ok.mp h
  obtain ⟨levels', options', _, named', hlevels', hbelow', hdeps', hnamed', hvalues', hexported'⟩ :=
    load_ok.mp h'
  have horder := Digraph.levelsBelow_of_levelsFrom hlevels
  have horder' := Digraph.levelsBelow_of_levelsFrom hlevels'
  have hflat : levels.flatten = levels'.flatten := horder.eq_of_agree horder' hagree.releaseGraph
  have hreach : ∀ n ∈ levels.flatten, c.releaseGraph.Reach u.name n := fun n hn =>
    ((horder.mem_iff n).mp hn).to_reflTransGen
  -- The same rules are stored for what the unit depends on.
  rw [storeDependencies_eq_pure hfree hf fun n => horder.mem_nodes] at hdeps
  rw [storeDependencies_eq_pure hfree' hf' fun n => horder'.mem_nodes, ← hflat,
    ← flatMap_exportedRules_of_agree fun n hn => hagree.releases n (hreach n hn)] at hdeps'
  cases hdeps
  cases hdeps'
  -- So the options before the unit's own rules are the same, and with them everything else.
  obtain rfl : named = named' := by
    rw [nameDebugFile_congr hroot] at hnamed
    exact Except.ok.inj (hnamed.symm.trans hnamed')
  have hdepValues : loaded.depValues = loaded'.depValues := Except.ok.inj (hvalues.symm.trans hvalues')
  rw [storeExported_eq_pure hfree hget] at hexported
  rw [storeExported_eq_pure hfree' hget'] at hexported'
  have hexports : loaded.exported = loaded'.exported := by
    have h₁ := congrArg Prod.fst (Except.ok.inj hexported)
    have h₂ := congrArg Prod.fst (Except.ok.inj hexported')
    exact h₁.symm.trans h₂
  cases loaded
  cases loaded'
  simp only [Loaded.mk.injEq]
  exact ⟨hbelow.trans (hflat.trans hbelow'.symm), hdepValues, hexports⟩

/-! ## Packages -/

/-- The dependencies of a package are only copied to its entry. -/
theorem outcome_inner?_relisted {options known : Table String} {p : SourceUnit}
    {members deps : List String} :
    (inner? plan options known (p.relisted members deps)).outcome
      = (inner? plan options known p).outcome.map (Option.map fun k => { k with deps }) := by
  unfold inner? SourceUnit.relisted
  simp only [Logged.outcome_bind, outcome_announceEvaluation, Failure.ok_bind]
  cases (plan.evaluate plan.watched options (known.set (locationKey p.name) p.path)).outcome with
  | error e => rfl
  | ok values =>
    simp only [Failure.ok_bind]
    cases isUnsupported values with
    | true => rfl
    | false =>
      simp only [Bool.false_eq_true, if_false, Logged.outcome_bind, Logged.outcome_lift]
      cases BuildFlags.ofOptions plan.style values <;> rfl

/-- **A package is configured alike in both repositories**: its options come from rules on which
    they agree, and its entry differs in the order of its lists at most. -/
theorem member?_of_agree (plan : Plan) (internal known : Table String) {m : String}
    (h : (units.get? m).map SourceUnit.ordered = (units'.get? m).map SourceUnit.ordered) :
    (member? plan (memberOptions plan internal) known units m).map InnerConfig.ordered
      = (member? plan (memberOptions plan internal) known units' m).map InnerConfig.ordered := by
  unfold member?
  cases hp : units.get? m with
  | none =>
    rw [hp, Option.map_none, eq_comm, Option.map_eq_none_iff] at h
    rw [h]
  | some p =>
    rw [hp, Option.map_some, eq_comm, Option.map_eq_some_iff] at h
    obtain ⟨q, hq, hordered⟩ := h
    obtain ⟨members, deps, rfl, _, hdeps⟩ := SourceUnit.exists_of_ordered hordered.symm
    have hoptions : memberOptions plan internal (p.relisted members deps)
      = memberOptions plan internal p := rfl
    rw [hq, Option.bind_some, Option.bind_some, hoptions]
    cases (memberOptions plan internal p).outcome with
    | error e => rfl
    | ok options =>
      rw [Failure.ok_bind, Failure.ok_bind, outcome_inner?_relisted]
      cases hinner : (inner? plan options known p).outcome with
      | error e => rfl
      | ok k? =>
        cases k? with
        | none => rfl
        | some k =>
          have hk := (innerOf_of_inner? hinner).deps
          have hset : Text.sortedSet k.deps = Text.sortedSet deps :=
            Text.sortedSet_eq_of_mem_iff fun d => by rw [hk]; exact hdeps d
          show some k.ordered = some ({ k with deps }).ordered
          unfold InnerConfig.ordered
          rw [hset]

/-! ## Names from outside -/

/-- Below a unit, the names from outside are those that are no units of release. -/
theorem Faithful.contains_externalDeps (hf : Faithful c config) {d : String}
    (hd : TransGen c.releaseGraph.Edge name d) :
    config.externalDeps.contains d = true ↔ d ∉ c.releases.keys := by
  rw [List.contains_iff_mem, hf.externalDeps, Digraph.mem_externalNodes, Context.keys_releaseGraph]
  obtain ⟨b, _, hedge⟩ := TransGen.tail'_iff.mp hd
  exact ⟨fun h => h.1, fun h => ⟨h, b, hedge⟩⟩

/-- The names from outside below a unit are the same in both, as both agree on what exists below
    it. -/
theorem externalBelow_of_agree (hf : Faithful c config) (hf' : Faithful c' config')
    (hagree : AgreeOn c c' name) {below : List String}
    (hbelow : ∀ n ∈ below, TransGen c.releaseGraph.Edge name n) :
    externalBelow config below = externalBelow config' below := by
  unfold externalBelow
  congr 1
  refine List.filter_congr fun n hn => ?_
  have hbelow' := hagree.releaseGraph.below_iff.mp (hbelow n hn)
  rw [Bool.eq_iff_iff, hf.contains_externalDeps (hbelow n hn), hf'.contains_externalDeps hbelow',
    hagree.mem_keys_iff (hbelow n hn).to_reflTransGen]

theorem innerDeps_of_agree (hf : Faithful c config) (hf' : Faithful c' config')
    (hagree : AgreeOn c c' name) (hu : c.releases.get? name = some u)
    (hv : c'.releases.get? name = some v) (hdeps : ∀ d, d ∈ u.deps ↔ d ∈ v.deps) :
    Text.sortedSet (innerDeps config u) = Text.sortedSet (innerDeps config' v) := by
  refine Text.sortedSet_eq_of_mem_iff fun d => ?_
  rw [hf.mem_innerDeps hu, hf'.mem_innerDeps hv, ← hdeps d]
  refine and_congr_right fun hd => hagree.mem_keys_iff ?_
  exact ReflTransGen.single (Context.edge_releaseGraph.mpr ⟨u, hu, hd⟩)

/-! ## Entries -/

/-- Two configurations say the same of a unit of release with some packages, up to the order of names. -/
structure Same (name : String) (packages : List String) (config config' : BuildConfig) : Prop where
  group : (config.groups.get? name).map GroupConfig.ordered
    = (config'.groups.get? name).map GroupConfig.ordered
  standAlone : (config.standAlones.get? name).map PackageConfig.ordered
    = (config'.standAlones.get? name).map PackageConfig.ordered
  inner : ∀ m ∈ packages, (config.inners.get? m).map InnerConfig.ordered
    = (config'.inners.get? m).map InnerConfig.ordered

/-- The packages of a unit. -/
def packagesOf (u : SourceUnit) : List String := if u.kind = .group then u.members else []

theorem mem_packagesOf {m : String} : m ∈ packagesOf u ↔ u.kind = .group ∧ m ∈ u.members := by
  unfold packagesOf
  split <;> simp_all

/-- Where neither configuration has an entry of the unit, there is nothing to tell them apart. -/
theorem NoEntries.same (h : NoEntries u config) (h' : NoEntries v config') (hname : u.name = v.name)
    (hpackages : ∀ m ∈ packagesOf u, m ∈ packagesOf v) :
    Same u.name (packagesOf u) config config' := by
  refine ⟨?_, ?_, fun m hm => ?_⟩
  · rw [h.group, hname, h'.group]
  · rw [h.standAlone, hname, h'.standAlone]
  · obtain ⟨hkind, hin⟩ := mem_packagesOf.mp hm
    obtain ⟨hkind', hin'⟩ := mem_packagesOf.mp (hpackages m hm)
    rw [h.inner hkind m hin, h'.inner hkind' m hin']

/-- **The entries that a turn writes are the same in repositories that agree on the unit.** -/
theorem enter_of_agree (hf : Faithful c config) (hf' : Faithful c' config') (hnone : NoEntries u config)
    (hnone' : NoEntries v config') (hu : u ∈ configurable c) (hv : v ∈ configurable c')
    (hsame : u.ordered = v.ordered) (hagree : AgreeOn c c' u.name) {below : List String}
    (hbelow : ∀ n ∈ below, TransGen c.releaseGraph.Edge u.name n) {internal : Table String}
    {flags : BuildFlags} {after after' : BuildConfig}
    (h : (enter plan u below (memberOptions plan internal) flags c.units config).outcome = .ok after)
    (h' : (enter plan v below (memberOptions plan internal) flags c'.units config').outcome
      = .ok after') :
    Same u.name (packagesOf u) after after' := by
  have hrelease := (mem_configurable.mp hu).1
  have hrelease' := (mem_configurable.mp hv).1
  obtain ⟨members, deps, rfl, hmembers, hdeps⟩ := SourceUnit.exists_of_ordered hsame
  have hexternal := externalBelow_of_agree hf hf' hagree hbelow
  have hinner := innerDeps_of_agree hf hf' hagree hrelease hrelease' hdeps
  rcases enter_entry h with ⟨hkind, built, inners, hinners, rfl⟩ | ⟨hkind, rfl⟩
  · rcases enter_entry h' with ⟨hkind', built', inners', hinners', rfl⟩ | ⟨hkind', _⟩
    swap
    · exact absurd hkind hkind'
    obtain ⟨hbuilt, hget⟩ := addInners_entries hinners
    obtain ⟨hbuilt', hget'⟩ := addInners_entries hinners'
    have hmember := fun m hm =>
      member?_of_agree plan internal (location u) (hagree.packages u hrelease hkind m hm)
    -- The same packages are supported, though each repository lists them in its own order.
    have hnames : Text.sortedSet built = Text.sortedSet built' := by
      refine Text.sortedSet_eq_of_mem_iff fun m => ?_
      rw [hbuilt, hbuilt', List.mem_filter, List.mem_filter, SourceUnit.members_relisted, ← hmembers m]
      refine and_congr_right fun hm => ?_
      have hsome := congrArg Option.isSome (hmember m hm)
      rw [Option.isSome_map, Option.isSome_map] at hsome
      rw [hsome]
      rfl
    refine ⟨?_, ?_, fun m hm => ?_⟩
    · show ((config.groups.set u.name _).get? u.name).map _
        = ((config'.groups.set u.name _).get? u.name).map _
      rw [Table.get?_set_self, Table.get?_set_self, Option.map_some, Option.map_some]
      unfold groupEntry GroupConfig.ordered
      simp only [hnames, hinner, hexternal]
      rfl
    · exact congrArg (Option.map _) (hnone.standAlone.trans hnone'.standAlone.symm)
    · have hin := (mem_packagesOf.mp hm).2
      have hin' : m ∈ (u.relisted members deps).members := (hmembers m).mp hin
      show (inners.get? m).map _ = (inners'.get? m).map _
      rw [hget m, if_pos hin, hnone.inner hkind m hin, Option.or_none,
        hget' m, if_pos hin', hnone'.inner hkind' m hin', Option.or_none]
      exact hmember m hin
  · rcases enter_entry h' with ⟨hkind', _⟩ | ⟨_, rfl⟩
    · exact absurd hkind' hkind
    -- A package that stands alone has no packages, and only its own entry is written.
    refine ⟨?_, ?_, fun m hm => absurd (mem_packagesOf.mp hm).1 hkind⟩
    · exact congrArg (Option.map _) (hnone.group.trans hnone'.group.symm)
    · show ((config.standAlones.set u.name _).get? u.name).map _
        = ((config'.standAlones.set u.name _).get? u.name).map _
      rw [Table.get?_set_self, Table.get?_set_self, Option.map_some, Option.map_some]
      unfold packageEntry PackageConfig.ordered
      simp only [hinner, hexternal]
      rfl

/-- The turn of a unit has the same result in repositories that agree on it. -/
theorem addRelease_of_agree (hfree : WithoutCommands c []) (hfree' : WithoutCommands c' [])
    (hf : Faithful c config) (hf' : Faithful c' config') (hnone : NoEntries u config)
    (hnone' : NoEntries v config')
    (hroot : isVisualStudio plan.uplid = true → config.root = config'.root)
    (hu : u ∈ configurable c) (hv : v ∈ configurable c') (hsame : u.ordered = v.ordered)
    (hagree : AgreeOn c c' u.name) {after after' : BuildConfig}
    (h : (addRelease plan c.releaseGraph base u c.units config).outcome = .ok (c.units, after))
    (h' : (addRelease plan c'.releaseGraph base v c'.units config').outcome = .ok (c'.units, after')) :
    Same u.name (packagesOf u) after after' := by
  obtain ⟨loaded, values, hload, hvalues, hcase⟩ := addRelease_ok.mp h
  obtain ⟨loaded', values', hload', hvalues', hcase'⟩ := addRelease_ok.mp h'
  obtain rfl := load_of_agree hfree hfree' hf hf' hroot hu hv hsame hagree hload hload'
  obtain ⟨members, deps, hrelisted, hmembers, _⟩ := SourceUnit.exists_of_ordered hsame
  have hlocation : location v = location u := by rw [hrelisted]; rfl
  rw [hlocation, hvalues, Except.ok.injEq] at hvalues'
  subst hvalues'
  rcases hcase
    with ⟨hskip, rfl⟩ | ⟨hsupported, internal, rules, own, flags, hstore, hown, hflags, henter⟩
  · rcases hcase' with ⟨_, rfl⟩ | ⟨hsupported', _⟩
    swap
    · rw [hskip] at hsupported'
      cases hsupported'
    refine hnone.same hnone' (by rw [hrelisted]; rfl) fun m hm => ?_
    rw [hrelisted, mem_packagesOf]
    obtain ⟨hkind, hin⟩ := mem_packagesOf.mp hm
    exact ⟨hkind, (hmembers m).mp hin⟩
  · rcases hcase'
      with ⟨hskip', _⟩ | ⟨_, internal', rules', own', flags', hstore', hown', hflags', henter'⟩
    · rw [hsupported] at hskip'
      cases hskip'
    -- The internal rules are the same as well, and so are the flags that come out.
    have hopts : v.opts = u.opts := by rw [hrelisted]; rfl
    have hname : v.name = u.name := by rw [hrelisted]; rfl
    rw [hopts, hstore, Except.ok.injEq, Prod.mk.injEq] at hstore'
    obtain ⟨rfl, _⟩ := hstore'
    rw [hlocation, hown, Except.ok.injEq] at hown'
    subst hown'
    rw [hname, hflags, Except.ok.injEq] at hflags'
    subst hflags'
    obtain ⟨levels, _, _, _, hlevels, hbelow, _⟩ := load_ok.mp hload
    have horder := Digraph.levelsBelow_of_levelsFrom hlevels
    refine enter_of_agree hf hf' hnone hnone' hu hv hsame hagree (fun n hn => ?_) henter henter'
    rw [hbelow] at hn
    exact (horder.mem_iff n).mp hn

/-! ## Whole configurations -/

/-- Later turns leave the entries of the unit alone, so equal entries stay equal to the end. -/
theorem Same.of_sameEntries (h : Same u.name (packagesOf u) config config') {after after' : BuildConfig}
    (hafter : SameEntries u config after) (hafter' : SameEntries v config' after')
    (hsame : u.ordered = v.ordered) : Same u.name (packagesOf u) after after' := by
  obtain ⟨members, deps, rfl, hmembers, _⟩ := SourceUnit.exists_of_ordered hsame
  have hname : (u.relisted members deps).name = u.name := rfl
  refine ⟨?_, ?_, fun m hm => ?_⟩
  · rw [hafter.group, h.group, ← hname, hafter'.group]
  · rw [hafter.standAlone, h.standAlone, ← hname, hafter'.standAlone]
  · obtain ⟨hkind, hin⟩ := mem_packagesOf.mp hm
    rw [hafter.inner hkind m hin, h.inner m hm, hafter'.inner hkind m ((hmembers m).mp hin)]

/-- A unit of release that is to be configured has the same entries in both configurations. -/
theorem same_of_agree (hfree : WithoutCommands c []) (hfree' : WithoutCommands c' [])
    (hapart : c.MembersApart) (hapart' : c'.MembersApart)
    (hroot : isVisualStudio plan.uplid = true → c.root = c'.root) (hu : u ∈ configurable c)
    (hagree : AgreeOn c c' u.name) (h : (make plan c defaults).outcome = .ok config)
    (h' : (make plan c' defaults).outcome = .ok config') :
    Same u.name (packagesOf u) config config' := by
  obtain ⟨hrelease, hkind⟩ := mem_configurable.mp hu
  obtain ⟨v, hv, hsame⟩ := hagree.exists_of_releases ReflTransGen.refl hrelease
  obtain ⟨_, _, hrelisted, _, _⟩ := SourceUnit.exists_of_ordered hsame
  have hv' : v ∈ configurable c' := by
    rw [mem_configurable, Context.named_releases hv]
    refine ⟨hv, ?_⟩
    rw [hrelisted]
    exact hkind
  obtain ⟨base, _, config₁, config₂, hstart, hf, hroot₁, hnone, hturn, hafter⟩ :=
    exists_ownTurn hfree hapart hu h
  obtain ⟨base', _, config₁', config₂', hstart', hf', hroot₁', hnone', hturn', hafter'⟩ :=
    exists_ownTurn hfree' hapart' hv' h'
  obtain rfl : base = base' := by
    obtain ⟨⟨_, hbase⟩, _⟩ := start_ok hstart
    obtain ⟨⟨_, hbase'⟩, _⟩ := start_ok hstart'
    rw [hbase, Except.ok.injEq, Prod.mk.injEq] at hbase'
    exact hbase'.1
  have hroots : isVisualStudio plan.uplid = true → config₁.root = config₁'.root := fun hstudio => by
    rw [hroot₁, hroot₁', hroot hstudio]
  exact (addRelease_of_agree hfree hfree' hf hf' hnone hnone' hroots hu hv' hsame hagree hturn
    hturn').of_sameEntries hafter hafter' hsame

/-- What is not configured in turn has no entries of its own. -/
theorem Faithful.get?_eq_none (hf : Faithful c config) (h : loadedUnit? c name = none) :
    config.groups.get? name = none ∧ config.standAlones.get? name = none := by
  have habsent : ∀ u, c.releases.get? name = some u → ¬ u.kind ≠ .thirdParty := by
    intro u hu hkind
    rw [loadedUnit?_eq_some_iff.mpr ⟨hu, hkind⟩] at h
    cases h
  constructor
  · refine Option.eq_none_iff_forall_ne_some.mpr fun g hg => ?_
    obtain ⟨u, hu, hkind, _⟩ := hf.group hg
    exact habsent u hu (by rw [hkind]; decide)
  · refine Option.eq_none_iff_forall_ne_some.mpr fun p hp => ?_
    obtain ⟨u, hu, _, hkind, _⟩ := hf.standAlone hp
    exact habsent u hu hkind

/-- Third-party directories are listed as the repository has them, up to the order in their
    lists. -/
theorem Faithful.map_ordered_thirdParties (hf : Faithful c config) :
    (config.thirdParties.get? name).map SourceUnit.ordered
      = ((c.releases.get? name).map SourceUnit.ordered).filter (·.kind == .thirdParty) := by
  have hfilter :
      config.thirdParties.get? name = (c.releases.get? name).filter (·.kind == .thirdParty) := by
    refine Option.ext fun u => ?_
    rw [hf.thirdParties, Table.get?_filter_eq_some_iff, Option.filter_eq_some_iff]
  rw [hfilter, Option.filter_map]
  rfl

theorem isConfigured_iff_isSome : IsConfigured config name ↔
    (config.groups.get? name).isSome = true ∨ (config.standAlones.get? name).isSome = true ∨
      (config.thirdParties.get? name).isSome = true := by
  unfold IsConfigured
  rw [← Table.has_iff, ← Table.has_iff, ← Table.has_iff]
  rfl

/-- **The configuration of a unit depends only on what it can reach.**  Let two repositories without
    commands agree on a unit of release, on its packages and on all that it depends on, and be made into
    configurations with the same plan and the same default rules; with Visual Studio, let them also have
    the same root directory.  Then the unit is configured in both or in neither, and up to the order of
    names both configurations have the same entry for it and the same entry for each of its packages. -/
theorem make_of_agree (plan : Plan) (defaults : List Rule) (c c' : Context) (name : String)
    (hfree : WithoutCommands c []) (hfree' : WithoutCommands c' [])
    (hapart : c.MembersApart) (hapart' : c'.MembersApart)
    (hroot : isVisualStudio plan.uplid = true → c.root = c'.root) (hagree : AgreeOn c c' name)
    (config config' : BuildConfig) (h : (make plan c defaults).outcome = .ok config)
    (h' : (make plan c' defaults).outcome = .ok config') :
    (IsConfigured config name ↔ IsConfigured config' name) ∧
    (config.groups.get? name).map GroupConfig.ordered
      = (config'.groups.get? name).map GroupConfig.ordered ∧
    (config.standAlones.get? name).map PackageConfig.ordered
      = (config'.standAlones.get? name).map PackageConfig.ordered ∧
    (config.thirdParties.get? name).map SourceUnit.ordered
      = (config'.thirdParties.get? name).map SourceUnit.ordered ∧
    ∀ u, c.releases.get? name = some u → ∀ m ∈ packagesOf u,
      (config.inners.get? m).map InnerConfig.ordered
        = (config'.inners.get? m).map InnerConfig.ordered := by
  have hf := faithful_make h
  have hf' := faithful_make h'
  have hreleases := hagree.releases name ReflTransGen.refl
  have hthird : (config.thirdParties.get? name).map SourceUnit.ordered
      = (config'.thirdParties.get? name).map SourceUnit.ordered := by
    rw [hf.map_ordered_thirdParties, hf'.map_ordered_thirdParties, hreleases]
  obtain ⟨hgroup, halone, hinner⟩ :
      Same name ((loadedUnit? c name).elim [] packagesOf) config config' := by
    cases hloaded : loadedUnit? c name with
    | none =>
      have hrules := map_exportedRules_loadedUnit? hreleases
      rw [hloaded, Option.map_none, eq_comm, Option.map_eq_none_iff] at hrules
      obtain ⟨hgroups, halones⟩ := hf.get?_eq_none hloaded
      obtain ⟨hgroups', halones'⟩ := hf'.get?_eq_none hrules
      exact ⟨by rw [hgroups, hgroups'], by rw [halones, halones'],
        fun m hm => absurd hm List.not_mem_nil⟩
    | some u =>
      obtain ⟨hu, hkind⟩ := loadedUnit?_eq_some_iff.mp hloaded
      obtain rfl := Context.named_releases hu
      exact same_of_agree hfree hfree' hapart hapart' hroot (mem_configurable.mpr ⟨hu, hkind⟩)
        hagree h h'
  refine ⟨?_, hgroup, halone, hthird, fun u hu m hm => hinner m ?_⟩
  · rw [isConfigured_iff_isSome, isConfigured_iff_isSome, ← Option.isSome_map (f := GroupConfig.ordered),
      hgroup, Option.isSome_map, ← Option.isSome_map (f := PackageConfig.ordered), halone,
      Option.isSome_map, ← Option.isSome_map (f := SourceUnit.ordered), hthird, Option.isSome_map]
  · have hkind := (mem_packagesOf.mp hm).1
    rw [loadedUnit?_eq_some_iff.mpr ⟨hu, by rw [hkind]; decide⟩]
    exact hm

/-! ## A group in two repositories -/

/-- The group with its packages the other way round. -/
def kitTurned : SourceUnit := kit.relisted ["kitb", "kita"] []

theorem ordered_kitTurned : kit.ordered = kitTurned.ordered := by
  have hmembers : Text.sortedSet ["kita", "kitb"] = Text.sortedSet ["kitb", "kita"] :=
    Text.sortedSet_eq_of_mem_iff fun m => by simp [or_comm]
  unfold SourceUnit.ordered
  rw [show kit.members = ["kita", "kitb"] from rfl, hmembers]
  rfl

/-- The group in a repository of its own, below another root directory. -/
def kitAlone : Context := (((Context.empty "/s").put kitb).put kita).put kitTurned

theorem kitAlone_free : WithoutCommands kitAlone emptyFlagRules :=
  withoutCommands_of_entries (by decide +kernel) (by decide +kernel)

/-- The group can be configured although its lists are turned round. -/
theorem addRelease_kitTurned (hf : Faithful kitAlone config) : ∃ config',
    (addRelease plainPlan kitAlone.releaseGraph (optionsWith []) kitTurned kitAlone.units config).outcome
      = .ok (kitAlone.units, config') := by
  obtain ⟨flags, hturn⟩ := exists_addRelease_plain kitAlone_free hf List.mem_cons_self
    (show kitAlone.releaseGraph.levelsFrom (kitAlone.releaseGraph.children kitTurned.name)
      = .ok [] by cbv) rfl rfl rfl
    [("KIT_LOCN", "/r/kit")] (Table.ext (by decide +kernel)) (by cbv) (by decide +kernel) (by cbv)
  obtain ⟨a, ha⟩ := exists_inner_plain (u := kit) (p := kita)
    [("KIT_LOCN", "/r/kit"), ("KITA_LOCN", "/r/kit/kita")] (Table.ext (by decide +kernel)) (by cbv)
    (by decide +kernel) (by cbv)
  obtain ⟨b, hb⟩ := exists_inner_plain (u := kit) (p := kitb)
    [("KIT_LOCN", "/r/kit"), ("KITB_LOCN", "/r/kit/kitb")] (Table.ext (by decide +kernel)) (by cbv)
    (by decide +kernel) (by cbv)
  have hinners : (addInners plainPlan (memberOptions plainPlan (optionsWith [])) (location kit)
      kitAlone.units kitTurned.members config.inners).outcome
      = .ok (["kitb", "kita"], (config.inners.set "kitb" b).set "kita" a) :=
    addInners_cons_of_inner? (p := kitb) rfl rfl hb
      (addInners_cons_of_inner? (p := kita) rfl rfl ha rfl)
  have henter : ∃ config', (enter plainPlan kitTurned [] (memberOptions plainPlan (optionsWith [])) flags
      kitAlone.units config).outcome = .ok config' := by
    unfold enter
    rw [if_pos (by decide), Logged.outcome_bind, show location kitTurned = location kit from rfl,
      hinners]
    exact ⟨_, rfl⟩
  obtain ⟨config', henter⟩ := henter
  exact ⟨config', hturn config' henter⟩

theorem make_kitAlone : ∃ config, (make plainPlan kitAlone emptyFlagRules).outcome = .ok config := by
  obtain ⟨config₀, hstart⟩ := exists_start_plain kitAlone_free
  obtain ⟨config, hkit⟩ := addRelease_kitTurned (faithful_start hstart)
  exact ⟨_, make_ok.mpr ⟨_, _, _, _, hstart, .step hkit (.done _ _), rfl⟩⟩

/-- The two repositories agree on the group: the application of the larger one is above it. -/
theorem agreeOn_kit : AgreeOn kitRepository kitAlone "kit" := by
  have hchildren : kitRepository.releaseGraph.children "kit" = [] := by decide +kernel
  constructor
  · intro n hn
    rcases hn.cases_head with rfl | ⟨child, hedge, _⟩
    · exact congrArg some ordered_kitTurned
    · rw [show kitRepository.releaseGraph.Edge "kit" child = (child ∈ _) from rfl, hchildren] at hedge
      cases hedge
  · intro u hu _
    obtain rfl : kit = u := Option.some.inj hu
    have hunits : ∀ m ∈ kit.members, kitRepository.units.get? m = kitAlone.units.get? m := by
      decide +kernel
    exact fun m hm => congrArg _ (hunits m hm)

/-- The group has the same entries in both repositories, apart from the order of its packages. -/
theorem make_of_agree_kit : AgreeOn kitRepository kitAlone "kit" ∧ ∃ config config' g g',
    (make plainPlan kitRepository emptyFlagRules).outcome = .ok config ∧
    (make plainPlan kitAlone emptyFlagRules).outcome = .ok config' ∧
    config.groups.get? "kit" = some g ∧ config'.groups.get? "kit" = some g' ∧
    g.ordered = g'.ordered ∧ ∀ m ∈ ["kita", "kitb"],
      (config.inners.get? m).map InnerConfig.ordered
        = (config'.inners.get? m).map InnerConfig.ordered := by
  obtain ⟨config, g, _, hmake, hg, _⟩ := make_kitRepository
  obtain ⟨config', hmake'⟩ := make_kitAlone
  obtain ⟨_, hgroup, _, _, hinner⟩ := make_of_agree plainPlan emptyFlagRules kitRepository kitAlone "kit"
    ⟨by simp, kitRepository_free.exported, kitRepository_free.opts⟩
    ⟨by simp, kitAlone_free.exported, kitAlone_free.opts⟩
    (Context.membersApart_of_entries (by decide +kernel))
    (Context.membersApart_of_entries (by decide +kernel)) (by decide +kernel) agreeOn_kit config config'
    hmake hmake'
  rw [hg, Option.map_some, eq_comm, Option.map_eq_some_iff] at hgroup
  obtain ⟨g', hg', hordered⟩ := hgroup
  exact ⟨agreeOn_kit, config, config', g, g', hmake, hmake', hg, hg', hordered.symm, hinner kit rfl⟩

/-! ## A debug information file named from the root -/

/-- A plan for Visual Studio. -/
def studioPlan : Plan := { plainPlan with uplid := { osType := "windows", compilerType := "cl" } }

/-- The options that flags are read from; one of them is the flag to which the debug information file is
    added. -/
def studioEntries (flag component : String) : List (String × String) :=
  [("BDE_CXXFLAGS", flag), ("BDE_CFLAGS", flag), ("CXX", ""), ("CC", ""), ("CXXLINK", ""),
    ("COMPONENT_BDEBUILD_CXXFLAGS", component), ("COMPONENT_BDEBUILD_CFLAGS", ""),
    ("COMPONENT_BDEBUILD_LDFLAGS", ""), ("TESTDRIVER_BDEBUILD_CXXFLAGS", ""),
    ("TESTDRIVER_BDEBUILD_CFLAGS", "")]

/-- Rules that set these options, with no flags at first. -/
def studioRules : List Rule :=
  (studioEntries "" "$(BDE_CXXFLAGS)").map fun entry => ⟨.add, {}, {}, entry.1, entry.2⟩

/-- The options that these rules leave, with a flag added. -/
def studioOptions (flag : String) : Table String :=
  .ofList (("BDE_CXXINCLUDES", "$(BDE_CXXINCLUDE)") :: studioEntries flag "$(BDE_CXXFLAGS)")

/-- Their values, after some that were known before. -/
def studioValues (known : List (String × String)) (flag : String) : Table String :=
  .ofList (known ++ ("BDE_CXXINCLUDES", "") :: studioEntries flag flag)

/-- A library in a repository that is part of a workspace. -/
def lib : SourceUnit := { name := "lib", path := "/w/one/lib", kind := .standAlone }

/-- The library, below a root directory. -/
def libBelow (root : String) : Context := (Context.empty root).put lib

theorem libBelow_free (root : String) : WithoutCommands (libBelow root) studioRules :=
  withoutCommands_of_entries (by decide +kernel) (by
    intro entry hentry
    obtain rfl := List.mem_singleton.mp hentry
    decide +kernel)

/-- The flag that names the debug information file of the library, given the place of the library from
    the root directory. -/
def debugFlag (place : String) : String := " /Fd" ++ place ++ "\\" ++ lib.name ++ ".pdb"

/-- The flag for the debug file names the place of the unit below the root. -/
theorem nameDebugFile_lib {root place : String} (hplace : Path.relative lib.path root = place) :
    nameDebugFile studioPlan root lib (studioOptions "") = .ok (studioOptions (debugFlag place)) := by
  have hset : ((studioOptions "").set "BDE_CXXFLAGS" ("" ++ debugFlag place)).set "BDE_CFLAGS"
      ("" ++ debugFlag place) = studioOptions (debugFlag place) := by
    rw [String.empty_append]
    rfl
  unfold nameDebugFile
  rw [hplace, ← hset]
  rfl

/-- With the rules of Visual Studio a configuration starts, wherever the root is. -/
theorem exists_start_lib (root : String) : ∃ config₀,
    (start studioPlan (libBelow root) studioRules).outcome = .ok (studioOptions "", config₀) := by
  have hstored : studioPlan.target.stored initialOptions studioRules = studioOptions "" :=
    Table.ext (by decide +kernel)
  have hvalues : (studioPlan.evaluate [] (studioOptions "") ∅).outcome
      = .ok (studioValues [] "") := by cbv
  obtain ⟨flags, hflags⟩ := Failure.exists_of_isOk (show (BuildFlags.ofExports studioPlan.style
    (studioValues [] "") (studioValues [] "") [] []).isOk = true by cbv)
  unfold start
  rw [Logged.outcome_bind, outcome_storeRules_of_commandFree _ _ _ (libBelow_free root).defaults,
    hstored, Failure.ok_bind, Logged.outcome_bind, hvalues, Failure.ok_bind, Logged.outcome_bind,
    Logged.outcome_lift, hflags]
  exact ⟨_, rfl⟩

/-- The library is configured with this flag. -/
theorem make_lib (root place : String) (cxxflags : List String)
    (hplace : Path.relative lib.path root = place)
    {known : List (String × String)} (hknown : location lib = .ofList known)
    (hbelow : (studioPlan.evaluate [] (studioOptions (debugFlag place)) ∅).outcome
      = .ok (studioValues [] (debugFlag place)))
    (hvalues : (studioPlan.evaluate [] (studioOptions (debugFlag place)) (.ofList known)).outcome
      = .ok (studioValues known (debugFlag place)))
    (hsupported : isUnsupported (studioValues known (debugFlag place)) = false)
    (hflags : (releaseFlags studioPlan "lib" (studioValues [] (debugFlag place))
      (studioValues known (debugFlag place)) (studioValues known (debugFlag place))).map
      BuildFlags.cxxflags = .ok cxxflags) :
    ∃ config p, (make studioPlan (libBelow root) studioRules).outcome = .ok config ∧
      config.standAlones.get? "lib" = some p ∧ p.flags.cxxflags = cxxflags := by
  obtain ⟨config₀, hstart⟩ := exists_start_lib root
  have hlevels : (libBelow root).releaseGraph.levelsFrom ((libBelow root).releaseGraph.children lib.name)
      = .ok [] := by
    show (libBelow "").releaseGraph.levelsFrom ((libBelow "").releaseGraph.children lib.name) = .ok []
    cbv
  have hnamed : nameDebugFile studioPlan config₀.root lib (studioOptions "")
      = .ok (studioOptions (debugFlag place)) := by
    rw [root_of_start hstart]
    exact nameDebugFile_lib hplace
  have hload : (load studioPlan (libBelow root).releaseGraph (studioOptions "") lib (libBelow root).units
      config₀).outcome = .ok (⟨[], studioValues [] (debugFlag place), studioOptions (debugFlag place)⟩,
        (libBelow root).units) := by
    refine load_ok.mpr ⟨[], _, _, _, hlevels, rfl, rfl, hnamed, hbelow, ?_⟩
    rw [storeExported_eq_pure (libBelow_free root) rfl]
    rfl
  cases hout : releaseFlags studioPlan "lib" (studioValues [] (debugFlag place))
      (studioValues known (debugFlag place)) (studioValues known (debugFlag place)) with
  | error e =>
    rw [hout] at hflags
    cases hflags
  | ok flags =>
    rw [hout] at hflags
    rw [← hknown] at hvalues
    let entry := packageEntry config₀ lib [] flags
    have hturn : (addRelease studioPlan (libBelow root).releaseGraph (studioOptions "") lib
        (libBelow root).units config₀).outcome
        = .ok ((libBelow root).units,
            { config₀ with standAlones := config₀.standAlones.set "lib" entry }) :=
      addRelease_ok.mpr ⟨_, _, hload, hvalues,
        Or.inr ⟨hsupported, _, [], _, flags, rfl, hvalues, hout, rfl⟩⟩
    exact ⟨_, entry, make_ok.mpr ⟨_, _, _, _, hstart, .step hturn (.done _ _), rfl⟩,
      Table.get?_set_self _ _ _, Except.ok.inj hflags⟩

/-- **The root directory reaches the flags of a unit** with Visual Studio: a library has other flags in a
    repository that is loaded alone than in the same repository as part of a workspace, although the two
    agree on all there is. -/
theorem make_debug_file_differs :
    (∀ root, WithoutCommands (libBelow root) [] ∧ (libBelow root).MembersApart) ∧
    AgreeOn (libBelow "/w") (libBelow "/w/one") "lib" ∧
    ∃ config config' p p', (make studioPlan (libBelow "/w") studioRules).outcome = .ok config ∧
      (make studioPlan (libBelow "/w/one") studioRules).outcome = .ok config' ∧
      config.standAlones.get? "lib" = some p ∧ config'.standAlones.get? "lib" = some p' ∧
      p.flags.cxxflags = ["/Fdone/lib\\lib.pdb"] ∧ p'.flags.cxxflags = ["/Fdlib\\lib.pdb"] := by
  have hknown : location lib = .ofList [("LIB_LOCN", "/w/one/lib")] := Table.ext (by decide +kernel)
  obtain ⟨config, p, hmake, hp, hflags⟩ := make_lib "/w" "one/lib" ["/Fdone/lib\\lib.pdb"]
    (by decide +kernel) hknown (by cbv) (by cbv) (by decide +kernel) (by cbv)
  obtain ⟨config', p', hmake', hp', hflags'⟩ := make_lib "/w/one" "lib" ["/Fdlib\\lib.pdb"]
    (by decide +kernel) hknown (by cbv) (by cbv) (by decide +kernel) (by cbv)
  refine ⟨fun root => ⟨⟨by simp, (libBelow_free root).exported, (libBelow_free root).opts⟩, ?_⟩,
    ⟨fun _ _ => rfl, fun _ _ _ _ _ => rfl⟩, config, config', p, p', hmake, hmake', hp, hp', hflags,
      hflags'⟩
  refine Context.membersApart_of_entries fun e he e' he' _ _ _ _ _ => ?_
  rw [List.mem_singleton.mp he, List.mem_singleton.mp he']

end BuildConfig

end BuildMeta
