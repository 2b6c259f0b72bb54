import BuildMeta.Proofs.BuildConfig.Steps

/-!
# `Proofs.BuildConfig.Faithful` — a configuration says what the repository says

Making a configuration carries out the commands in exported rules, and touches nothing else of the units
(`Stable`, `SameUnits`).  Hence what a configuration says about dependencies and members is what the
units of the repository say: the invariant `Faithful`, kept by every step (`Faithful.step`) and so by a
whole run (`Faithful.run`).
-/

namespace BuildMeta.BuildConfig

variable {plan : Plan} {graph : Digraph} {base options : Table String} {u v : SourceUnit}
  {units units' : Table SourceUnit} {config config' : BuildConfig} {name : String}
  {names : List String} {optionsOf : SourceUnit → Logged (Table String)} {c : Context}
  {P : Table SourceUnit → Prop}

/-! ## What becomes of the units -/

/-- A property of the units that outlasts the storing of exported rules. -/
def Stable (plan : Plan) (P : Table SourceUnit → Prop) : Prop :=
  ∀ ⦃units name options out⦄, P units →
    (storeExported plan units name options).outcome = .ok out → P out.2

/-- What storing the rules of one unit keeps is kept while those of all dependencies are stored.
    The induction follows the list of names. -/
theorem Stable.storeDependencies (hstable : Stable plan P) (hunits : P units) {options' : Table String}
    (h : (storeDependencies plan config names units options).outcome = .ok (options', units')) :
    P units' := by
  induction names generalizing units options with
  | nil =>
    cases h
    exact hunits
  | cons name rest ih =>
    cases hpassed : isPassedOver config name with
    | true =>
      rw [storeDependencies_cons_of_passedOver hpassed] at h
      exact ih hunits h
    | false =>
      rw [storeDependencies_cons_of_not hpassed] at h
      obtain ⟨out, hout, hrest⟩ := Logged.outcome_bind_eq_ok_iff.mp h
      exact ih (hstable hunits hout) hrest

theorem Stable.load (hstable : Stable plan P) (hunits : P units) {loaded : Loaded}
    (h : (load plan graph base u units config).outcome = .ok (loaded, units')) : P units' := by
  obtain ⟨_, _, unitsBelow, _, _, _, hdeps, _, _, hexported⟩ := load_ok.mp h
  exact hstable (hstable.storeDependencies hunits hdeps) hexported

theorem Stable.addRelease (hstable : Stable plan P) (hunits : P units)
    (h : (addRelease plan graph base u units config).outcome = .ok (units', config')) : P units' := by
  obtain ⟨_, _, hload, _⟩ := addRelease_ok.mp h
  exact hstable.load hunits hload

theorem Stable.run (hstable : Stable plan P) {us : List SourceUnit} (hunits : P units)
    (h : Run plan graph base us units config units' config') : P units' := by
  induction h with
  | done => exact hunits
  | step hstep _ ih => exact ih (hstable.addRelease hunits hstep)

/-- Putting a unit in the place of one that looks the same changes nothing of the looks. -/
theorem map_get?_set {α : Type} {f : SourceUnit → α} (hu : units.get? name = some u) (hf : f v = f u)
    (other : String) : ((units.set name v).get? other).map f = (units.get? other).map f := by
  by_cases hname : other = name
  · rw [hname, Table.get?_set_self, hu, Option.map_some, Option.map_some, hf]
  · rw [Table.get?_set_of_ne _ _ hname]

/-- A unit without its exported rules. -/
def bare (u : SourceUnit) : SourceUnit := withExported u [] []

theorem exists_of_bare (h : bare v = bare u) : ∃ cap defs, v = withExported u cap defs := by
  refine ⟨v.cap, v.defs, ?_⟩
  calc v = withExported (bare v) v.cap v.defs := rfl
    _ = withExported (bare u) v.cap v.defs := by rw [h]
    _ = withExported u v.cap v.defs := rfl

/-- Two tables hold the same units, apart from exported rules. -/
def SameUnits (units units' : Table SourceUnit) : Prop :=
  ∀ name, (units'.get? name).map bare = (units.get? name).map bare

theorem SameUnits.refl (units : Table SourceUnit) : SameUnits units units := fun _ => rfl

theorem stable_sameUnits (plan : Plan) (units₀ : Table SourceUnit) :
    Stable plan (SameUnits units₀) := by
  intro units name options out hunits h other
  obtain ⟨u, _, cap, defs, hu, _, _, hout⟩ := storeExported_ok.mp h
  rw [hout, ← hunits other]
  exact map_get?_set hu (show bare (withExported u cap defs) = bare u from rfl) other

theorem SameUnits.exists_of_get? (h : SameUnits units units') (hv : units'.get? name = some v) :
    ∃ u cap defs, units.get? name = some u ∧ v = withExported u cap defs := by
  have hname := h name
  rw [hv, Option.map_some, eq_comm, Option.map_eq_some_iff] at hname
  obtain ⟨u, hu, hbare⟩ := hname
  obtain ⟨cap, defs, hv⟩ := exists_of_bare hbare.symm
  exact ⟨u, cap, defs, hu, hv⟩

/-- A unit that is looked up again is still the same one. -/
theorem SameUnits.getD (h : SameUnits units units') (hu : units.get? name = some u) :
    ∃ cap defs, units'.getD name u = withExported u cap defs := by
  have hname := h name
  rw [hu, Option.map_some, Option.map_eq_some_iff] at hname
  obtain ⟨v, hv, hbare⟩ := hname
  rw [Table.getD, hv, Option.getD_some]
  exact exists_of_bare hbare

/-! ## Units to be configured -/

theorem mem_configurable :
    u ∈ configurable c ↔ c.releases.get? u.name = some u ∧ u.kind ≠ .thirdParty := by
  unfold configurable
  rw [List.mem_filter, Table.mem_values_iff, bne_iff_ne]
  refine and_congr_left fun _ => ⟨?_, fun h => ⟨u.name, h⟩⟩
  rintro ⟨name, h⟩
  rw [Context.named_releases h]
  exact h

theorem get?_units_of_mem_configurable (hu : u ∈ configurable c) : c.units.get? u.name = some u :=
  (Context.get?_releases.mp (mem_configurable.mp hu).1).1

/-- No two units have the same name. -/
theorem nodup_names_configurable (c : Context) : ((configurable c).map SourceUnit.name).Nodup := by
  have hkeys : c.releases.values.map SourceUnit.name = c.releases.keys := by
    unfold Table.values Table.keys
    rw [List.map_map]
    refine List.map_congr_left fun entry hentry => ?_
    exact Context.named_releases (Table.get?_eq_some_iff.mpr hentry)
  refine List.Nodup.sublist (List.filter_sublist.map SourceUnit.name) ?_
  rw [hkeys]
  exact c.releases.nodup

/-- The units before and after the turn of a unit have other names. -/
theorem configurable_split {before after : List SourceUnit} (h : configurable c = before ++ u :: after) :
    u.name ∉ before.map SourceUnit.name ∧ u.name ∉ after.map SourceUnit.name ∧
      ∀ v, v ∈ before ∨ v ∈ after → v ∈ configurable c := by
  have hnodup := nodup_names_configurable c
  rw [h, List.map_append, List.map_cons, List.nodup_append, List.nodup_cons] at hnodup
  obtain ⟨_, ⟨hafter, _⟩, hdisjoint⟩ := hnodup
  refine ⟨fun hin => hdisjoint _ hin _ List.mem_cons_self rfl, hafter, ?_⟩
  intro v hv
  rw [h, List.mem_append, List.mem_cons]
  exact hv.imp_right Or.inr

/-! ## Packages of a group -/

/-- Configured packages are members, and what is configured comes from the units. -/
theorem addInners_adds {known : Table String} {inners inners' : Table InnerConfig}
    {members : List String}
    (h : (addInners plan optionsOf known units names inners).outcome = .ok (members, inners')) :
    (∀ m ∈ members, m ∈ names ∧ m ∈ inners'.keys) ∧ (∀ m ∈ inners.keys, m ∈ inners'.keys) ∧
    ∀ ⦃name k⦄, inners'.get? name = some k →
      inners.get? name = some k ∨ ∃ p, units.get? name = some p ∧ InnerOf p k := by
  induction names generalizing members inners with
  | nil =>
    cases h
    exact ⟨fun m hm => absurd hm List.not_mem_nil, fun m hm => hm, fun _ _ hk => Or.inl hk⟩
  | cons name rest ih =>
    obtain ⟨p, options, hp, _, ⟨_, hrest⟩ | ⟨k, more, hk, hrest, rfl⟩⟩ := addInners_cons_ok h
    · obtain ⟨hmembers, hkeys, hfrom⟩ := ih hrest
      exact ⟨fun m hm => ⟨List.mem_cons_of_mem _ (hmembers m hm).1, (hmembers m hm).2⟩, hkeys, hfrom⟩
    · obtain ⟨hmembers, hkeys, hfrom⟩ := ih hrest
      refine ⟨fun m hm => ?_, fun m hm => hkeys m (Table.mem_keys_set.mpr (Or.inr hm)), ?_⟩
      · rcases List.mem_cons.mp hm with rfl | hm'
        · exact ⟨List.mem_cons_self, hkeys m (Table.mem_keys_set.mpr (Or.inl rfl))⟩
        · exact ⟨List.mem_cons_of_mem _ (hmembers m hm').1, (hmembers m hm').2⟩
      · intro other k' hk'
        refine (hfrom hk').imp_left ?_ |>.elim id Or.inr
        intro hset
        by_cases hother : other = name
        · subst hother
          rw [Table.get?_set_self, Option.some.injEq] at hset
          subst hset
          exact Or.inr ⟨p, hp, innerOf_of_inner? hk⟩
        · rw [Table.get?_set_of_ne _ _ hother] at hset
          exact Or.inl hset

/-! ## The invariant -/

/-- What a configuration says about dependencies and members is what the repository says. -/
structure Faithful (c : Context) (config : BuildConfig) : Prop where
  externalDeps : config.externalDeps = c.releaseGraph.externalNodes
  thirdParties : config.thirdParties = c.releases.filter fun _ u => u.kind == .thirdParty
  inner : ∀ ⦃name k⦄, config.inners.get? name = some k →
    ∃ p, c.units.get? name = some p ∧ k.deps = p.deps
  group : ∀ ⦃name g⦄, config.groups.get? name = some g →
    ∃ u, c.releases.get? name = some u ∧ u.kind = .group ∧ g.deps = innerDeps config u ∧
      ∀ m ∈ g.members, m ∈ u.members ∧ m ∈ config.inners.keys
  standAlone : ∀ ⦃name p⦄, config.standAlones.get? name = some p →
    ∃ u, c.releases.get? name = some u ∧ u.kind ≠ .group ∧ u.kind ≠ .thirdParty ∧
      p.deps = innerDeps config u

/-- At the start nothing is configured, and the names from outside and the third-party directories
    are those of the repository. -/
theorem faithful_start {defaults : List Rule}
    (h : (start plan c defaults).outcome = .ok (base, config)) : Faithful c config := by
  obtain ⟨_, hexternal, hthird, hgroups, halones, hinners⟩ := start_ok h
  refine ⟨hexternal, hthird, ?_, ?_, ?_⟩
  · intro name k hk
    rw [hinners] at hk
    cases hk
  · intro name g hg
    rw [hgroups] at hg
    cases hg
  · intro name p hp
    rw [halones] at hp
    cases hp

/-- Entering a unit keeps the invariant.  The unit may carry other exported rules than at first. -/
theorem Faithful.enter (hf : Faithful c config) (hunits : SameUnits c.units units)
    (hu : u ∈ configurable c) {cap defs : List Rule} {below : List String} {flags : BuildFlags}
    (h : (enter plan (withExported u cap defs) below optionsOf flags units config).outcome
      = .ok config') : Faithful c config' := by
  obtain ⟨hrelease, hthird⟩ := mem_configurable.mp hu
  rcases enter_ok h with ⟨hkind, members, inners, g, hinners, hdeps, rfl, _, rfl⟩ |
    ⟨hkind, p, hdeps, _, rfl⟩
  · obtain ⟨hmembers, hkeys, hfrom⟩ := addInners_adds hinners
    refine ⟨hf.externalDeps, hf.thirdParties, ?_, ?_, hf.standAlone⟩
    · intro name k hk
      rcases hfrom hk with hold | ⟨p, hp, hinner⟩
      · exact hf.inner hold
      · obtain ⟨q, _, _, hq, rfl⟩ := hunits.exists_of_get? hp
        exact ⟨q, hq, hinner.deps⟩
    · intro name g' hg'
      by_cases hname : name = u.name
      · subst hname
        obtain rfl : g = g' := Option.some.inj ((Table.get?_set_self _ _ _).symm.trans hg')
        exact ⟨u, hrelease, hkind, hdeps, hmembers⟩
      · -- A group from before: the packages of the new one are only added to those of its members.
        obtain ⟨w, hw, hwkind, hwdeps, hwmembers⟩ :=
          hf.group ((Table.get?_set_of_ne _ _ hname).symm.trans hg')
        exact ⟨w, hw, hwkind, hwdeps, fun m hm =>
          ⟨(hwmembers m hm).1, hkeys m (hwmembers m hm).2⟩⟩
  · refine ⟨hf.externalDeps, hf.thirdParties, hf.inner, hf.group, ?_⟩
    intro name p' hp'
    by_cases hname : name = u.name
    · subst hname
      obtain rfl : p = p' := Option.some.inj ((Table.get?_set_self _ _ _).symm.trans hp')
      exact ⟨u, hrelease, hkind, hthird, hdeps⟩
    · exact hf.standAlone ((Table.get?_set_of_ne _ _ hname).symm.trans hp')

/-- **One step keeps the invariant.** -/
theorem Faithful.step (hf : Faithful c config) (hunits : SameUnits c.units units)
    (hu : u ∈ configurable c)
    (h : (addRelease plan graph base (units.getD u.name u) units config).outcome
      = .ok (units', config')) : Faithful c config' := by
  -- The unit is looked up again, so its exported rules may have been replaced in the meantime.
  obtain ⟨cap, defs, hsame⟩ := hunits.getD (get?_units_of_mem_configurable hu)
  rw [hsame] at h
  obtain ⟨loaded, values, hload, _, ⟨_, rfl⟩ |
    ⟨_, internal, _, _, flags, _, _, _, henter⟩⟩ := addRelease_ok.mp h
  · exact hf
  · exact hf.enter ((stable_sameUnits plan c.units).load hunits hload) hu henter

/-- **A run keeps the invariant.** -/
theorem Faithful.run {us : List SourceUnit} (hf : Faithful c config)
    (hunits : SameUnits c.units units) (hus : ∀ u ∈ us, u ∈ configurable c)
    (h : Run plan graph base us units config units' config') : Faithful c config' := by
  induction h with
  | done => exact hf
  | step hstep _ ih =>
    refine ih (hf.step hunits (hus _ List.mem_cons_self) hstep)
      ((stable_sameUnits plan c.units).addRelease hunits hstep) ?_
    exact fun w hw => hus w (List.mem_cons_of_mem _ hw)

theorem faithful_make {defaults : List Rule} (h : (make plan c defaults).outcome = .ok config') :
    Faithful c config' := by
  obtain ⟨base, config, units', configured, hstart, hrun, rfl⟩ := make_ok.mp h
  have hf := (faithful_start hstart).run (SameUnits.refl _) (fun _ hu => hu) hrun
  exact ⟨hf.externalDeps, hf.thirdParties, hf.inner, hf.group, hf.standAlone⟩

/-! ## Dependencies that are recorded -/

/-- The recorded dependencies of a unit are its dependencies among the units of release. -/
theorem Faithful.mem_innerDeps (hf : Faithful c config) (hu : c.releases.get? name = some u)
    {d : String} : d ∈ innerDeps config u ↔ d ∈ u.deps ∧ d ∈ c.releases.keys := by
  unfold innerDeps
  rw [List.mem_filter, hf.externalDeps]
  refine and_congr_right fun hd => ?_
  rw [Bool.not_eq_true', ← Bool.not_eq_true, List.contains_iff_mem, Digraph.mem_externalNodes,
    Context.keys_releaseGraph]
  have hedge : c.releaseGraph.Edge name d := Context.edge_releaseGraph.mpr ⟨u, hu, hd⟩
  exact ⟨fun h => by_contra fun hkey => h ⟨hkey, name, hedge⟩, fun hkey h => h.1 hkey⟩

end BuildMeta.BuildConfig
