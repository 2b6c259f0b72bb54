import BuildMeta.Proofs.BuildConfig.BuildOrder
import BuildMeta.Proofs.BuildConfig.Capability
import BuildMeta.Proofs.BuildConfig.Entries
import BuildMeta.Proofs.Repo.Survey
import Mathlib

/-!
# `Proofs.BuildConfig.Membership` — groups and their packages stay in step

A package of a group is configured in the turn of its group, from the group's internal options and
its own rules (`PackageTurn`), and is left out if its `CAPABILITY` comes out as `NEVER`, or if its
whole group is. Hence the packages with an entry are exactly the members of the configured groups,
each of a single one (`make_members`), and the graph of a configured group can always be made.
-/

namespace BuildMeta.BuildConfig

variable {plan : Plan} {graph : Digraph} {base : Table String} {u : SourceUnit}
  {units units' : Table SourceUnit} {config config' : BuildConfig} {m name : String}
  {names : List String} {optionsOf : SourceUnit → Logged (Table String)} {c : Context}
  {defaults : List Rule}

/-! ## Runs have one outcome -/

/-- A run has one result, by induction along the turns. -/
theorem Run.unique {us : List SourceUnit} {units₁ units₂ : Table SourceUnit}
    {config₁ config₂ : BuildConfig} (h : Run plan graph base us units config units₁ config₁)
    (h' : Run plan graph base us units config units₂ config₂) : units₁ = units₂ ∧ config₁ = config₂ := by
  induction h with
  | done =>
    cases h'
    exact ⟨rfl, rfl⟩
  | step hstep _ ih =>
    cases h' with
    | step hstep' hrest' =>
      rw [hstep, Except.ok.injEq, Prod.mk.injEq] at hstep'
      obtain ⟨rfl, rfl⟩ := hstep'
      exact ih hrest'

/-- There is one state in which the turn of a unit comes. -/
theorem AtTurn.unique {base' : Table String} (h : AtTurn plan c defaults u base units config)
    (h' : AtTurn plan c defaults u base' units' config') :
    base = base' ∧ units = units' ∧ config = config' := by
  obtain ⟨hstart, hturn, hrun⟩ := h
  obtain ⟨hstart', hturn', hrun'⟩ := h'
  rw [hstart, Except.ok.injEq, Prod.mk.injEq] at hstart'
  obtain ⟨rfl, rfl⟩ := hstart'
  -- The unit stands at one place only, so the same units have had their turn.
  obtain ⟨hbefore, hafter, _⟩ := configurable_split hturn
  rw [hturn, List.append_cons_inj_of_notMem (fun hin => hbefore (List.mem_map_of_mem hin))
    (fun hin => hafter (List.mem_map_of_mem hin))] at hturn'
  obtain ⟨rfl, _, _⟩ := hturn'
  exact ⟨rfl, hrun.unique hrun'⟩

/-! ## Turns of packages -/

/-- In the course of making a configuration, when the turn of a group comes, the options of its
    package `m` come out with these values. -/
inductive PackageTurn (plan : Plan) (c : Context) (defaults : List Rule) (u : SourceUnit) (m : String) :
    Table String → Prop
  | intro {base internal options values : Table String} {config : BuildConfig} {loaded : Loaded}
      {units units' : Table SourceUnit} {rules : List Rule} {p : SourceUnit}
      (hat : AtTurn plan c defaults u base units config)
      (hload : (load plan c.releaseGraph base (units.getD u.name u) units config).outcome
        = .ok (loaded, units'))
      (hinternal : (plan.store loaded.exported u.opts).outcome = .ok (internal, rules))
      (hp : units'.get? m = some p)
      (hoptions : (memberOptions plan internal p).outcome = .ok options)
      (hvalues : (plan.evaluate plan.watched options
        ((location u).set (locationKey p.name) p.path)).outcome = .ok values) :
      PackageTurn plan c defaults u m values

/-- The turn of a package evaluates its options once, so their values are determined. -/
theorem PackageTurn.unique {values values' : Table String} (h : PackageTurn plan c defaults u m values)
    (h' : PackageTurn plan c defaults u m values') : values = values' := by
  obtain ⟨hat, hload, hinternal, hp, hoptions, hvalues⟩ := h
  obtain ⟨hat', hload', hinternal', hp', hoptions', hvalues'⟩ := h'
  obtain ⟨rfl, rfl, rfl⟩ := hat.unique hat'
  rw [hload, Except.ok.injEq, Prod.mk.injEq] at hload'
  obtain ⟨rfl, rfl⟩ := hload'
  rw [hinternal, Except.ok.injEq, Prod.mk.injEq] at hinternal'
  obtain ⟨rfl, rfl⟩ := hinternal'
  rw [hp, Option.some.injEq] at hp'
  obtain rfl := hp'
  rw [hoptions, Except.ok.injEq] at hoptions'
  obtain rfl := hoptions'
  rw [hvalues, Except.ok.injEq] at hvalues'
  exact hvalues'

/-- A package is configured unless its values say that it cannot be built. -/
theorem inner?_ok {options known : Table String} {p : SourceUnit} {k : Option InnerConfig}
    (h : (inner? plan options known p).outcome = .ok k) :
    ∃ values, (plan.evaluate plan.watched options (known.set (locationKey p.name) p.path)).outcome
      = .ok values ∧ (k.isSome = true ↔ isUnsupported values = false) := by
  unfold inner? at h
  obtain ⟨_, _, hrest⟩ := Logged.outcome_bind_eq_ok_iff.mp h
  obtain ⟨values, hvalues, hrest⟩ := Logged.outcome_bind_eq_ok_iff.mp hrest
  refine ⟨values, hvalues, ?_⟩
  by_cases hsupported : isUnsupported values = true
  · rw [if_pos hsupported] at hrest
    obtain ⟨_, _, hout⟩ := Logged.outcome_bind_eq_ok_iff.mp hrest
    cases hout
    simp [hsupported]
  · rw [if_neg hsupported] at hrest
    obtain ⟨flags, _, hout⟩ := Logged.outcome_bind_eq_ok_iff.mp hrest
    cases hout
    simpa using hsupported

/-- All packages of a group are evaluated, also those that are left out. -/
theorem exists_values_of_addInners {known : Table String} {inners : Table InnerConfig}
    {out : List String × Table InnerConfig}
    (h : (addInners plan optionsOf known units names inners).outcome = .ok out) (hm : m ∈ names) :
    ∃ p options values, units.get? m = some p ∧ (optionsOf p).outcome = .ok options ∧
      (plan.evaluate plan.watched options (known.set (locationKey p.name) p.path)).outcome = .ok values ∧
      ((member? plan optionsOf known units m).isSome = true ↔ isUnsupported values = false) := by
  induction names generalizing inners out with
  | nil => cases hm
  | cons name rest ih =>
    obtain ⟨p, options, hp, hoptions, hcase⟩ := addInners_cons_ok h
    rcases List.mem_cons.mp hm with rfl | hm'
    · obtain ⟨k, hk⟩ : ∃ k, (inner? plan options known p).outcome = .ok k := by
        rcases hcase with ⟨hk, _⟩ | ⟨k, _, hk, _⟩
        · exact ⟨none, hk⟩
        · exact ⟨some k, hk⟩
      obtain ⟨values, hvalues, hsome⟩ := inner?_ok hk
      refine ⟨p, options, values, hp, hoptions, hvalues, ?_⟩
      rw [member?_of_inner? hp hoptions hk]
      exact hsome
    · rcases hcase with ⟨_, hrest⟩ | ⟨_, _, _, hrest, _⟩
      · exact ih hrest hm'
      · exact ih hrest hm'

/-! ## Entries of packages -/

/-- Every package with an entry is listed by some group of the repository. -/
def Listed (c : Context) (config : BuildConfig) : Prop :=
  ∀ m ∈ config.inners.keys, ∃ u ∈ configurable c, u.kind = .group ∧ m ∈ u.members

/-- **One step enters packages of its own group only.** -/
theorem Listed.step (hlisted : Listed c config) (hunits : SameUnits c.units units)
    (hu : u ∈ configurable c)
    (h : (addRelease plan graph base (units.getD u.name u) units config).outcome
      = .ok (units', config')) : Listed c config' := by
  obtain ⟨cap, defs, hsame⟩ := hunits.getD (get?_units_of_mem_configurable hu)
  rw [hsame] at h
  obtain ⟨_, _, _, _, ⟨_, rfl⟩ | ⟨_, _, _, _, _, _, _, _, henter⟩⟩ := addRelease_ok.mp h
  · exact hlisted
  · rcases enter_entry henter with ⟨hkind, members, inners, hinners, rfl⟩ | ⟨_, rfl⟩
    · have hget : ∀ m, inners.get? m = if m ∈ u.members then _ else config.inners.get? m :=
        (addInners_entries hinners).2
      intro m hm
      by_cases hmember : m ∈ u.members
      · exact ⟨u, hu, hkind, hmember⟩
      · -- Under any other name the turn has left what was there.
        refine hlisted m ?_
        obtain ⟨k, hk⟩ := Table.mem_keys_iff.mp hm
        have hold := hget m
        rw [if_neg hmember] at hold
        exact Table.mem_keys_iff.mpr ⟨k, hold.symm.trans hk⟩
    · exact hlisted

/-- What is listed after one turn is listed after a run of them. -/
theorem Listed.run {us : List SourceUnit} (hlisted : Listed c config) (hunits : SameUnits c.units units)
    (hus : ∀ u ∈ us, u ∈ configurable c) (h : Run plan graph base us units config units' config') :
    Listed c config' := by
  induction h with
  | done => exact hlisted
  | step hstep _ ih =>
    have hunits' := (stable_sameUnits plan c.units).addRelease hunits hstep
    exact ih (hlisted.step hunits (hus _ List.mem_cons_self) hstep) hunits'
      fun w hw => hus w (List.mem_cons_of_mem _ hw)

/-- In the end every package with an entry is listed by a group of the repository. -/
theorem listed_make (h : (make plan c defaults).outcome = .ok config) : Listed c config := by
  obtain ⟨base, config₀, units', configured, hstart, hrun, rfl⟩ := make_ok.mp h
  obtain ⟨_, _, _, _, _, hinners⟩ := start_ok hstart
  have hlisted : Listed c config₀ := by
    intro m hm
    rw [hinners] at hm
    cases hm
  have hend : Listed c configured := hlisted.run (SameUnits.refl _) (fun _ hu => hu) hrun
  exact hend

/-- **The turn of a group settles the entries of all its packages.**  If the group is left out, they
    have none; otherwise those that can be built have one, and are the members of the configured
    group. -/
theorem make_group (hapart : c.MembersApart) (hu : u ∈ configurable c) (hkind : u.kind = .group)
    (h : (make plan c defaults).outcome = .ok config) :
    (config.groups.get? u.name = none ∧ ∀ m ∈ u.members, m ∉ config.inners.keys) ∨
    ∃ g, config.groups.get? u.name = some g ∧ g.members = u.members.filter config.inners.has ∧
      ∀ m ∈ u.members, ∃ values, PackageTurn plan c defaults u m values ∧
        (m ∈ config.inners.keys ↔ isUnsupported values = false) := by
  obtain ⟨base, units, config₁, units', config₂, hat, _, hnone, hstep, hend⟩ := exists_atTurn hapart hu h
  obtain ⟨cap, defs, hsame⟩ := hat.sameUnits.getD (get?_units_of_mem_configurable hu)
  rw [hsame] at hstep
  obtain ⟨loaded, _, hload, _, ⟨_, rfl⟩ |
    ⟨_, internal, rules, _, _, hinternal, _, _, henter⟩⟩ := addRelease_ok.mp hstep
  · refine Or.inl ⟨hend.group.trans hnone.group, fun m hm => ?_⟩
    exact Table.get?_eq_none_iff.mp ((hend.inner hkind m hm).trans (hnone.inner hkind m hm))
  · rw [← hsame] at hload
    rcases enter_entry henter with ⟨_, members, inners, hinners, rfl⟩ | ⟨hother, _⟩
    · right
      have hturn : (addInners plan (memberOptions plan internal) (location u) units' u.members
        config₁.inners).outcome = .ok (members, inners) := hinners
      obtain ⟨hmembers, hget⟩ := addInners_entries hturn
      -- Nothing stood under the names of the packages before the turn.
      have hentry : ∀ m ∈ u.members, config.inners.get? m
          = member? plan (memberOptions plan internal) (location u) units' m := by
        intro m hm
        have hleft := hget m
        rw [if_pos hm, hnone.inner hkind m hm, Option.or_none] at hleft
        exact (hend.inner hkind m hm).trans hleft
      refine ⟨_, hend.group.trans (Table.get?_set_self _ _ _), ?_, ?_⟩
      · show members = _
        rw [hmembers]
        refine List.filter_congr fun m hm => ?_
        rw [Table.has, hentry m hm]
      · intro m hm
        obtain ⟨p, options, values, hp, hoptions, hvalues, hsome⟩ := exists_values_of_addInners hturn hm
        refine ⟨values, .intro hat hload hinternal hp hoptions hvalues, ?_⟩
        rw [← hsome, ← Table.has_iff, Table.has, hentry m hm]
    · exact absurd hkind hother

/-- A configured group is a group of the repository, with those of its packages that have an entry. -/
theorem exists_unit_of_group (hapart : c.MembersApart) (h : (make plan c defaults).outcome = .ok config)
    {g : GroupConfig} (hg : config.groups.get? name = some g) :
    ∃ u ∈ configurable c, u.name = name ∧ u.kind = .group ∧
      g.members = u.members.filter config.inners.has := by
  obtain ⟨u, hu, hkind, _⟩ := (faithful_make h).group hg
  obtain rfl : u.name = name := Context.named_releases hu
  have hconfigurable : u ∈ configurable c := mem_configurable.mpr ⟨hu, by rw [hkind]; decide⟩
  refine ⟨u, hconfigurable, rfl, hkind, ?_⟩
  rcases make_group hapart hconfigurable hkind h with ⟨hnone, _⟩ | ⟨g', hg', hmembers, _⟩
  · rw [hg] at hnone
    cases hnone
  · rw [hg, Option.some.injEq] at hg'
    rw [hg']
    exact hmembers

/-- **Packages and members tell the same story**: an entry of a package belongs to a group that
    lists it, and every listed package has one. -/
theorem mem_inners_iff (hapart : c.MembersApart) (h : (make plan c defaults).outcome = .ok config) :
    m ∈ config.inners.keys ↔ ∃ g ∈ config.groups.values, m ∈ g.members := by
  constructor
  · intro hm
    obtain ⟨u, hu, hkind, hmember⟩ := listed_make h m hm
    rcases make_group hapart hu hkind h with ⟨_, hnone⟩ | ⟨g, hg, hmembers, _⟩
    · exact absurd hm (hnone m hmember)
    · refine ⟨g, Table.mem_values_iff.mpr ⟨_, hg⟩, ?_⟩
      rw [hmembers, List.mem_filter, Table.has_iff]
      exact ⟨hmember, hm⟩
  · rintro ⟨g, hg, hm⟩
    obtain ⟨name, hname⟩ := Table.mem_values_iff.mp hg
    obtain ⟨u, _, _, _, hmembers⟩ := (faithful_make h).group hname
    exact (hmembers m hm).2

/-- The members of the configured groups are all different. -/
theorem nodup_members {tree : FileTree} {root : String}
    (hsurveyed : Context.Surveyed tree (Context.met tree root) c)
    (h : (make plan c defaults).outcome = .ok config) :
    (config.groups.values.flatMap GroupConfig.members).Nodup := by
  have hapart := hsurveyed.membersApart
  have horigin : ∀ e ∈ config.groups.entries, ∃ u, c.units.get? e.1 = some u ∧ u.kind = .group ∧
      e.2.members = u.members.filter config.inners.has := by
    intro e he
    obtain ⟨u, hu, hname, hkind, hmembers⟩ :=
      exists_unit_of_group hapart h (Table.get?_eq_some_iff.mpr he)
    exact ⟨u, hname ▸ get?_units_of_mem_configurable hu, hkind, hmembers⟩
  rw [Table.values, List.flatMap_map, List.nodup_flatMap]
  constructor
  · intro e he
    obtain ⟨u, hu, hkind, hmembers⟩ := horigin e he
    rw [hmembers]
    exact (hsurveyed.nodup_members hu hkind).filter _
  · -- Groups stand under different names, and those with different names share no package.
    have hnames : config.groups.entries.Pairwise fun e e' => e.1 ≠ e'.1 :=
      List.pairwise_map.mp config.groups.nodup
    refine hnames.imp_of_mem fun {e e'} he he' hne => ?_
    intro m hm hm'
    change m ∈ e.2.members at hm
    change m ∈ e'.2.members at hm'
    obtain ⟨u, hu, hkind, hmembers⟩ := horigin e he
    obtain ⟨v, hv, hkind', hmembers'⟩ := horigin e' he'
    rw [hmembers, List.mem_filter] at hm
    rw [hmembers', List.mem_filter] at hm'
    exact hne (hapart hu hv hkind hkind' hm.1 hm'.1)

/-- **Groups and packages stay in step.**  In every configuration of a loaded repository the
    packages with an entry are the members of the configured groups, each of a single one.  A
    package of a group that is left out has no entry, nor has one whose `CAPABILITY` comes out as
    `NEVER`; all others have.  The graph of a configured group can be made, and stays among its
    members. -/
theorem make_members (tree : FileTree) (verbose : Bool) (root : String) (c : Context) (plan : Plan)
    (defaults : List Rule) (config : BuildConfig)
    (hload : (Context.load tree verbose root).outcome = .ok c)
    (hmake : (make plan c defaults).outcome = .ok config) :
    config.inners.keys.Perm (config.groups.values.flatMap GroupConfig.members) ∧
    (∀ u ∈ configurable c, u.kind = .group → ∀ m ∈ u.members,
      (u.name ∉ config.groups.keys → m ∉ config.inners.keys) ∧
      (u.name ∈ config.groups.keys → ∃ values, PackageTurn plan c defaults u m values) ∧
      ∀ values, PackageTurn plan c defaults u m values →
        (m ∈ config.inners.keys ↔
          u.name ∈ config.groups.keys ∧ values.get? "CAPABILITY" ≠ some "NEVER")) ∧
    ∀ name g, config.groups.get? name = some g →
      (∃ u ∈ configurable c, u.name = name ∧ u.kind = .group ∧
        g.members = u.members.filter config.inners.has) ∧
      ∃ graph, config.packageGraph name = .ok graph ∧ (∀ m, m ∈ graph.keys ↔ m ∈ g.members) ∧
        ∀ m n, graph.Edge m n → n ∈ g.members := by
  have hsurveyed := Context.surveyed_of_load hload
  have hapart := hsurveyed.membersApart
  refine ⟨?_, ?_, ?_⟩
  · refine (List.perm_ext_iff_of_nodup config.inners.nodup (nodup_members hsurveyed hmake)).mpr ?_
    intro m
    rw [List.mem_flatMap]
    exact mem_inners_iff hapart hmake
  · intro u hu hkind m hm
    rcases make_group hapart hu hkind hmake with ⟨hnone, hout⟩ | ⟨g, hg, _, hturns⟩
    · have hkey : u.name ∉ config.groups.keys := Table.get?_eq_none_iff.mp hnone
      refine ⟨fun _ => hout m hm, fun hin => absurd hin hkey, fun values _ => ?_⟩
      exact ⟨fun hin => absurd hin (hout m hm), fun hin => absurd hin.1 hkey⟩
    · have hkey : u.name ∈ config.groups.keys := Table.mem_keys_of_get? hg
      obtain ⟨values, hturn, hiff⟩ := hturns m hm
      refine ⟨fun hnot => absurd hkey hnot, fun _ => ⟨values, hturn⟩, fun values' hturn' => ?_⟩
      obtain rfl := hturn.unique hturn'
      rw [hiff, ← Bool.not_eq_true, isUnsupported_iff]
      exact ⟨fun hne => ⟨hkey, hne⟩, fun hne => hne.2⟩
  · intro name g hg
    refine ⟨exists_unit_of_group hapart hmake hg, ?_⟩
    obtain ⟨graph, hgraph, hkeys, hedges⟩ := (faithful_make hmake).exists_packageGraph hg
    refine ⟨graph, hgraph, hkeys, fun m n hedge => ?_⟩
    obtain ⟨_, p, _, hn⟩ := (hedges m n).mp hedge
    exact List.contains_iff_mem.mp (List.mem_filter.mp hn).2

/-! ## A group that can be built, and one that cannot -/

/-- The files of a repository with two groups of one package each. -/
def shelfTree : FileTree where
  files := .ofList [("/r/.bdelayoutconfig", "\x7b\"group_abs_dirs\": [\"kit\", \"lib\"]\x7d"),
    ("/r/kit/group/kit.mem", "kita"), ("/r/lib/group/lib.mem", "liba"),
    ("/r/lib/group/lib.cap", "!! * _ CAPABILITY = NEVER")]
  dirs := ["/", "/r", "/r/kit", "/r/kit/group", "/r/lib", "/r/lib/group"]

/-- The group that can be built. -/
def shelfKit : SourceUnit :=
  { name := "kit", path := "/r/kit", kind := .group, members := ["kita"], doc := some ⟨"kit", "N/A"⟩ }

/-- Its package. -/
def shelfKita : SourceUnit := { name := "kita", path := "/r/kit/kita", kind := .normal }

/-- The group that cannot be built. -/
def shelfLib : SourceUnit :=
  { name := "lib", path := "/r/lib", kind := .group, members := ["liba"], cap := capability "NEVER",
    doc := some ⟨"lib", "N/A"⟩ }

/-- The context of the two groups and their packages. -/
def shelf : Context :=
  ((((Context.empty "/r").put shelfKit).put shelfKita).put shelfLib).put
    { name := "liba", path := "/r/lib/liba", kind := .normal }

theorem load_shelf : (Context.load shelfTree false "/r").outcome = .ok shelf :=
  Context.eq_ok_of_parts (by decide +kernel)

theorem shelf_free : WithoutCommands shelf emptyFlagRules :=
  withoutCommands_of_entries (by decide +kernel) (by decide +kernel)

/-- The package of the first group is configured. -/
theorem enter_shelfKit (flags : BuildFlags) (config : BuildConfig) : ∃ config' g,
    (enter plainPlan shelfKit [] (memberOptions plainPlan (optionsWith [])) flags shelf.units
      config).outcome
      = .ok config' ∧
    config'.groups = config.groups.set "kit" g ∧ g.members = ["kita"] := by
  obtain ⟨k, hk⟩ := exists_inner_plain (u := shelfKit) (p := shelfKita)
    [("KIT_LOCN", "/r/kit"), ("KITA_LOCN", "/r/kit/kita")] (Table.ext (by decide +kernel)) (by cbv)
    (by decide +kernel) (by cbv)
  have hinners : (addInners plainPlan (memberOptions plainPlan (optionsWith [])) (location shelfKit)
      shelf.units shelfKit.members config.inners).outcome = .ok (["kita"], config.inners.set "kita" k) :=
    addInners_cons_of_inner? (p := shelfKita) rfl rfl hk rfl
  unfold enter
  rw [if_pos (by decide), Logged.outcome_bind, hinners]
  exact ⟨_, _, rfl, rfl, rfl⟩

/-- The turn of the group leaves out the package that cannot be built. -/
theorem addRelease_shelfKit (hf : Faithful shelf config) : ∃ config' g,
    (addRelease plainPlan shelf.releaseGraph (optionsWith []) shelfKit shelf.units config).outcome
      = .ok (shelf.units, config') ∧
    config'.groups = config.groups.set "kit" g ∧ g.members = ["kita"] := by
  obtain ⟨flags, hturn⟩ := exists_addRelease_plain shelf_free hf List.mem_cons_self
    (show shelf.releaseGraph.levelsFrom (shelf.releaseGraph.children shelfKit.name) = .ok [] by cbv)
    rfl rfl rfl [("KIT_LOCN", "/r/kit")] (Table.ext (by decide +kernel)) (by cbv)
    (by decide +kernel) (by cbv)
  obtain ⟨config', g, henter, hgroups, hmembers⟩ := enter_shelfKit flags config
  exact ⟨config', g, hturn config' henter, hgroups, hmembers⟩

/-- The second group is left out. -/
theorem addRelease_shelfLib (hf : Faithful shelf config) :
    (addRelease plainPlan shelf.releaseGraph (optionsWith []) shelfLib shelf.units config).outcome
      = .ok (shelf.units, config) := by
  have hload : (load plainPlan shelf.releaseGraph (optionsWith []) shelfLib shelf.units config).outcome
      = .ok (⟨[], valuesWith [] [], optionsWith [("CAPABILITY", "NEVER")]⟩, shelf.units) := by
    rw [← stored_low]
    exact load_of_values rfl shelf_free hf (List.mem_cons_of_mem _ List.mem_cons_self)
      (show shelf.releaseGraph.levelsFrom (shelf.releaseGraph.children shelfLib.name) = .ok [] by cbv)
      rfl evaluate_emptyFlags
  have hvalues : (plainPlan.evaluate [] (optionsWith [("CAPABILITY", "NEVER")])
      (location shelfLib)).outcome
      = .ok (valuesWith [("LIB_LOCN", "/r/lib")] [("CAPABILITY", "NEVER")]) := by
    rw [show location shelfLib = .ofList [("LIB_LOCN", "/r/lib")] from Table.ext (by decide +kernel)]
    cbv
  exact addRelease_ok.mpr ⟨_, _, hload, hvalues, Or.inl ⟨rfl, rfl⟩⟩

/-- The shelf as a whole: one group, with the one package that is left. -/
theorem make_shelf : ∃ config g, (make plainPlan shelf emptyFlagRules).outcome = .ok config ∧
    config.groups.entries = [("kit", g)] ∧ g.members = ["kita"] := by
  obtain ⟨config₀, hstart⟩ := exists_start_plain shelf_free
  have hf := faithful_start hstart
  obtain ⟨_, _, _, hempty, _, _⟩ := start_ok hstart
  obtain ⟨config, g, hkit, hgroups, hmembers⟩ := addRelease_shelfKit hf
  have hf' := hf.step (SameUnits.refl _) List.mem_cons_self hkit
  have hrun : Run plainPlan shelf.releaseGraph (optionsWith []) [shelfKit, shelfLib] shelf.units config₀
      shelf.units config := .step hkit (.step (addRelease_shelfLib hf') (.done _ _))
  refine ⟨_, g, make_ok.mpr ⟨_, _, _, _, hstart, hrun, rfl⟩, ?_, hmembers⟩
  show config.groups.entries = _
  rw [hgroups, hempty]
  rfl

/-- The package of the first group is configured, and that of the group that is left out is not. -/
theorem make_members_shelf : (Context.load shelfTree false "/r").outcome = .ok shelf ∧
    ∃ config, (make plainPlan shelf emptyFlagRules).outcome = .ok config ∧
      config.groups.keys = ["kit"] ∧ config.inners.keys = ["kita"] ∧
      "liba" ∈ shelfLib.members ∧ "liba" ∉ config.inners.keys := by
  obtain ⟨config, g, hmake, hgroups, hmembers⟩ := make_shelf
  have hkeys : config.groups.keys = ["kit"] := by
    rw [Table.keys, hgroups]
    rfl
  obtain ⟨hperm, hpackages, _⟩ := make_members shelfTree false "/r" shelf plainPlan emptyFlagRules config
    load_shelf hmake
  have hunion : config.groups.values.flatMap GroupConfig.members = ["kita"] := by
    rw [Table.values, hgroups]
    simp [hmembers]
  rw [hunion] at hperm
  have hskipped : shelfLib.name ∉ config.groups.keys := by
    rw [hkeys]
    decide
  have hlib : shelfLib ∈ configurable shelf := List.mem_cons_of_mem _ List.mem_cons_self
  refine ⟨load_shelf, config, hmake, hkeys, List.perm_singleton.mp hperm, List.mem_cons_self, ?_⟩
  exact (hpackages shelfLib hlib rfl "liba" List.mem_cons_self).1 hskipped

end BuildMeta.BuildConfig
