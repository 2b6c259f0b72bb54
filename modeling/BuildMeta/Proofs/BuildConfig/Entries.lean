import BuildMeta.Proofs.BuildConfig.LoadOrder
import BuildMeta.Proofs.Repo.Members

/-!
# `Proofs.BuildConfig.Entries` — which entries of a configuration come from which turn

The turn of a unit of release writes the entry of that unit and those of its packages: `enter_entry` says
what it writes, and `addInners_entries` which packages are left out.  No other turn writes them
(`SameEntries.addRelease`), as long as no package belongs to two groups.  Hence the entries of a unit in
a whole configuration are those that its own turn has left (`exists_atTurn`, `exists_ownTurn`).
-/

namespace BuildMeta.BuildConfig

variable {plan : Plan} {graph : Digraph} {base : Table String} {u v : SourceUnit}
  {units units' : Table SourceUnit} {config config' : BuildConfig} {names : List String}
  {optionsOf : SourceUnit → Logged (Table String)} {c : Context} {defaults : List Rule}

/-! ## Entries -/

/-- The names from outside the repository among the names below a unit. -/
def externalBelow (config : BuildConfig) (below : List String) : List String :=
  Text.sortedSet (below.filter config.externalDeps.contains)

/-- The entry of a group. -/
def groupEntry (config : BuildConfig) (u : SourceUnit) (below : List String) (flags : BuildFlags)
    (members : List String) : GroupConfig :=
  { name := u.name, path := u.path, doc := u.doc, version := u.version, deps := innerDeps config u,
    externalDeps := externalBelow config below, flags, members }

/-- The entry of a package outside groups. -/
def packageEntry (config : BuildConfig) (u : SourceUnit) (below : List String) (flags : BuildFlags) :
    PackageConfig :=
  { name := u.name, path := u.path, doc := u.doc, version := u.version, deps := innerDeps config u,
    externalDeps := externalBelow config below, flags, kind := u.kind, hasDums := u.hasDums,
    components := u.components, appMain := u.appMain }

/-- What entering a unit can do: a group gets its packages and its entry, any other unit its entry
    alone.  Every later fact on entries is read off here. -/
theorem enter_entry {below : List String} {flags : BuildFlags}
    (h : (enter plan u below optionsOf flags units config).outcome = .ok config') :
    (u.kind = .group ∧ ∃ members inners,
      (addInners plan optionsOf (location u) units u.members config.inners).outcome
        = .ok (members, inners) ∧
      config' = { config with
        inners, groups := config.groups.set u.name (groupEntry config u below flags members) }) ∨
    (u.kind ≠ .group ∧ config' = { config with
      standAlones := config.standAlones.set u.name (packageEntry config u below flags) }) := by
  unfold enter at h
  by_cases hkind : (u.kind == .group) = true
  · rw [if_pos hkind] at h
    obtain ⟨⟨members, inners⟩, hinners, hout⟩ := Logged.outcome_bind_eq_ok_iff.mp h
    cases hout
    exact Or.inl ⟨by simpa using hkind, members, inners, hinners, rfl⟩
  · rw [if_neg hkind] at h
    cases h
    exact Or.inr ⟨by simpa using hkind, rfl⟩

/-- The configuration of a package of a group; there is none if the package cannot be built. -/
def member? (plan : Plan) (optionsOf : SourceUnit → Logged (Table String)) (known : Table String)
    (units : Table SourceUnit) (name : String) : Option InnerConfig :=
  (units.get? name).bind fun p =>
    (((optionsOf p).outcome >>= fun options => (inner? plan options known p).outcome).toOption).join

theorem member?_of_inner? {known options : Table String} {name : String} {p : SourceUnit}
    {k : Option InnerConfig} (hp : units.get? name = some p)
    (hoptions : (optionsOf p).outcome = .ok options)
    (hk : (inner? plan options known p).outcome = .ok k) :
    member? plan optionsOf known units name = k := by
  unfold member?
  rw [hp, Option.bind_some, hoptions, Failure.ok_bind, hk]
  cases k <;> rfl

/-- The packages of a group that can be built are listed, and entered in the place of what stood there
    before. -/
theorem addInners_entries {known : Table String} {inners inners' : Table InnerConfig}
    {members : List String}
    (h : (addInners plan optionsOf known units names inners).outcome = .ok (members, inners')) :
    members = names.filter (fun m => (member? plan optionsOf known units m).isSome) ∧
    ∀ m, inners'.get? m
      = if m ∈ names then (member? plan optionsOf known units m).or (inners.get? m)
        else inners.get? m := by
  induction names generalizing members inners with
  | nil =>
    cases h
    exact ⟨rfl, fun m => by rw [if_neg List.not_mem_nil]⟩
  | cons name rest ih =>
    obtain ⟨p, options, hp, hoptions, ⟨hk, hrest⟩ | ⟨k, more, hk, hrest, rfl⟩⟩ := addInners_cons_ok h
    · have hmember := member?_of_inner? hp hoptions hk
      obtain ⟨hmembers, hget⟩ := ih hrest
      refine ⟨?_, fun m => ?_⟩
      · rw [List.filter_cons_of_neg (by rw [hmember]; simp), hmembers]
      · rw [hget m]
        by_cases hm : m = name
        · subst hm
          simp [hmember]
        · simp [hm]
    · have hmember := member?_of_inner? hp hoptions hk
      obtain ⟨hmembers, hget⟩ := ih hrest
      refine ⟨?_, fun m => ?_⟩
      · rw [List.filter_cons_of_pos (by rw [hmember]; simp), hmembers]
      · rw [hget m]
        by_cases hm : m = name
        · -- The package may be listed once more, with the same result.
          subst hm
          simp [hmember]
        · rw [Table.get?_set_of_ne _ _ hm]
          simp [hm]

/-! ## What other turns leave alone -/

/-- Two configurations say the same of a unit of release and of its packages. -/
structure SameEntries (u : SourceUnit) (config config' : BuildConfig) : Prop where
  root : config'.root = config.root
  group : config'.groups.get? u.name = config.groups.get? u.name
  standAlone : config'.standAlones.get? u.name = config.standAlones.get? u.name
  inner : u.kind = .group → ∀ m ∈ u.members, config'.inners.get? m = config.inners.get? m

theorem SameEntries.refl (u : SourceUnit) (config : BuildConfig) : SameEntries u config config :=
  ⟨rfl, rfl, rfl, fun _ _ _ => rfl⟩

theorem SameEntries.trans {config₁ config₂ config₃ : BuildConfig} (h : SameEntries u config₁ config₂)
    (h' : SameEntries u config₂ config₃) : SameEntries u config₁ config₃ :=
  ⟨h'.root.trans h.root, h'.group.trans h.group, h'.standAlone.trans h.standAlone,
    fun hkind m hm => (h'.inner hkind m hm).trans (h.inner hkind m hm)⟩

/-- The turn of a unit with another name and other packages leaves the entries alone. -/
theorem SameEntries.addRelease (hname : u.name ≠ v.name)
    (hmembers : u.kind = .group → v.kind = .group → ∀ m ∈ u.members, m ∉ v.members)
    (h : (addRelease plan graph base v units config).outcome = .ok (units', config')) :
    SameEntries u config config' := by
  obtain ⟨_, _, _, _, ⟨_, rfl⟩ | ⟨_, _, _, _, _, _, _, _, henter⟩⟩ := addRelease_ok.mp h
  · exact SameEntries.refl u config'
  · rcases enter_entry henter with ⟨hkind, members, inners, hinners, rfl⟩ | ⟨_, rfl⟩
    · obtain ⟨_, hget⟩ := addInners_entries hinners
      refine ⟨rfl, Table.get?_set_of_ne _ _ hname, rfl, fun hgroup m hm => ?_⟩
      show inners.get? m = _
      rw [hget m, if_neg (hmembers hgroup hkind m hm)]
    · exact ⟨rfl, rfl, Table.get?_set_of_ne _ _ hname, fun _ _ _ => rfl⟩

/-- The turns of other units leave the entries alone. -/
theorem SameEntries.run {us : List SourceUnit} (hapart : c.MembersApart) (hu : u ∈ configurable c)
    (hunits : SameUnits c.units units) (hus : ∀ v ∈ us, v ∈ configurable c)
    (hname : u.name ∉ us.map SourceUnit.name)
    (h : Run plan graph base us units config units' config') : SameEntries u config config' := by
  induction h with
  | done => exact SameEntries.refl u _
  | @step v us _ _ _ _ _ _ hstep _ ih =>
    rw [List.map_cons, List.mem_cons, not_or] at hname
    have hv := hus v List.mem_cons_self
    have hunits' := (stable_sameUnits plan c.units).addRelease hunits hstep
    obtain ⟨cap, defs, hsame⟩ := hunits.getD (get?_units_of_mem_configurable hv)
    rw [hsame] at hstep
    refine SameEntries.trans (SameEntries.addRelease hname.1 ?_ hstep)
      (ih hunits' (fun w hw => hus w (List.mem_cons_of_mem _ hw)) hname.2)
    intro hgroup hgroup' m hm hm'
    exact hname.1 (hapart (get?_units_of_mem_configurable hu) (get?_units_of_mem_configurable hv)
      hgroup hgroup' hm hm')

/-! ## The turn of a unit -/

/-- A configuration says nothing of a unit of release and of its packages. -/
structure NoEntries (u : SourceUnit) (config : BuildConfig) : Prop where
  group : config.groups.get? u.name = none
  standAlone : config.standAlones.get? u.name = none
  inner : u.kind = .group → ∀ m ∈ u.members, config.inners.get? m = none

theorem root_of_start (h : (start plan c defaults).outcome = .ok (base, config)) :
    config.root = c.root := by
  unfold start at h
  obtain ⟨_, _, hrest⟩ := Logged.outcome_bind_eq_ok_iff.mp h
  obtain ⟨_, _, hrest⟩ := Logged.outcome_bind_eq_ok_iff.mp hrest
  obtain ⟨_, _, hout⟩ := Logged.outcome_bind_eq_ok_iff.mp hrest
  cases hout
  rfl

/-- Making a configuration comes to the turn of a unit with these default options, units and entries. -/
inductive AtTurn (plan : Plan) (c : Context) (defaults : List Rule) (u : SourceUnit) :
    Table String → Table SourceUnit → BuildConfig → Prop
  | intro {base : Table String} {config₀ config : BuildConfig} {before after : List SourceUnit}
      {units : Table SourceUnit}
      (hstart : (start plan c defaults).outcome = .ok (base, config₀))
      (hturn : configurable c = before ++ u :: after)
      (hrun : Run plan c.releaseGraph base before c.units config₀ units config) :
      AtTurn plan c defaults u base units config

theorem AtTurn.sameUnits (h : AtTurn plan c defaults u base units config) : SameUnits c.units units := by
  obtain ⟨_, _, hrun⟩ := h
  exact (stable_sameUnits plan c.units).run (SameUnits.refl _) hrun

theorem AtTurn.faithful (h : AtTurn plan c defaults u base units config) : Faithful c config := by
  obtain ⟨hstart, hturn, hrun⟩ := h
  obtain ⟨_, _, hmem⟩ := configurable_split hturn
  exact (faithful_start hstart).run (SameUnits.refl _) (fun v hv => hmem v (Or.inl hv)) hrun

/-- **The entries of a unit are those that its own turn has left.**  Before that turn there are none. -/
theorem exists_atTurn (hapart : c.MembersApart) (hu : u ∈ configurable c)
    (h : (make plan c defaults).outcome = .ok config) :
    ∃ base units config₁ units' config₂, AtTurn plan c defaults u base units config₁ ∧
      config₁.root = c.root ∧ NoEntries u config₁ ∧
      (addRelease plan c.releaseGraph base (units.getD u.name u) units config₁).outcome
        = .ok (units', config₂) ∧
      SameEntries u config₂ config := by
  obtain ⟨base, config₀, unitsEnd, configured, hstart, hrun, rfl⟩ := make_ok.mp h
  obtain ⟨before, after, hturn⟩ := List.append_of_mem hu
  obtain ⟨hnotBefore, hnotAfter, hmem⟩ := configurable_split hturn
  rw [hturn] at hrun
  obtain ⟨units, config₁, hbefore, hrest⟩ := run_append.mp hrun
  have hat : AtTurn plan c defaults u base units config₁ := .intro hstart hturn hbefore
  cases hrest with
  | @step _ _ _ units₂ _ _ config₂ _ hstep hrest =>
    have hstarted := SameEntries.run hapart hu (SameUnits.refl _) (fun v hv => hmem v (Or.inl hv))
      hnotBefore hbefore
    obtain ⟨_, _, _, hgroups, halones, hinners⟩ := start_ok hstart
    refine ⟨base, units, config₁, units₂, config₂, hat, ?_, ⟨?_, ?_, ?_⟩, hstep, ?_⟩
    · rw [hstarted.root, root_of_start hstart]
    · rw [hstarted.group, hgroups, Table.get?_empty]
    · rw [hstarted.standAlone, halones, Table.get?_empty]
    · intro hkind m hm
      rw [hstarted.inner hkind m hm, hinners, Table.get?_empty]
    · have hunits := (stable_sameUnits plan c.units).addRelease hat.sameUnits hstep
      have hend := SameEntries.run hapart hu hunits (fun v hv => hmem v (Or.inr hv)) hnotAfter hrest
      exact ⟨hend.root, hend.group, hend.standAlone, hend.inner⟩

/-- Without commands in exported rules, the units are at every turn what they were at first. -/
theorem exists_ownTurn (hfree : WithoutCommands c []) (hapart : c.MembersApart)
    (hu : u ∈ configurable c) (h : (make plan c defaults).outcome = .ok config) :
    ∃ base config₀ config₁ config₂, (start plan c defaults).outcome = .ok (base, config₀) ∧
      Faithful c config₁ ∧ config₁.root = c.root ∧ NoEntries u config₁ ∧
      (addRelease plan c.releaseGraph base u c.units config₁).outcome = .ok (c.units, config₂) ∧
      SameEntries u config₂ config := by
  obtain ⟨base, units, config₁, units₂, config₂, hat, hroot, hnone, hstep, hend⟩ :=
    exists_atTurn hapart hu h
  have hfaithful := hat.faithful
  obtain ⟨hstart, _, hrun⟩ := hat
  obtain rfl : units = c.units := (stable_units plan hfree).run rfl hrun
  obtain rfl : units₂ = c.units := (stable_units plan hfree).addRelease rfl hstep
  have hsame : c.units.getD u.name u = u := by
    rw [Table.getD, get?_units_of_mem_configurable hu, Option.getD_some]
  rw [hsame] at hstep
  exact ⟨base, _, config₁, config₂, hstart, hfaithful, hroot, hnone, hstep, hend⟩

/-- **The entry of a package outside groups says what its unit says.**  Only dependencies and flags
    depend on anything else. -/
theorem exists_packageEntry (hapart : c.MembersApart) (h : (make plan c defaults).outcome = .ok config)
    {name : String} {k : PackageConfig} (hk : config.standAlones.get? name = some k) :
    ∃ u config₁ below flags, c.releases.get? name = some u ∧ k = packageEntry config₁ u below flags := by
  obtain ⟨u, hu, hgroup, hthird, _⟩ := (faithful_make h).standAlone hk
  obtain rfl : u.name = name := Context.named_releases hu
  obtain ⟨base, units, config₁, units', config₂, hat, _, hnone, hstep, hend⟩ :=
    exists_atTurn hapart (mem_configurable.mpr ⟨hu, hthird⟩) h
  rw [hend.standAlone] at hk
  -- The unit may carry other exported rules at its turn; the entry does not show them.
  obtain ⟨cap, defs, hsame⟩ := hat.sameUnits.getD (Context.get?_releases.mp hu).1
  rw [hsame] at hstep
  obtain ⟨_, _, _, _, ⟨_, rfl⟩ | ⟨_, _, _, _, flags, _, _, _, henter⟩⟩ := addRelease_ok.mp hstep
  · rw [hnone.standAlone] at hk
    cases hk
  · rcases enter_entry henter with ⟨hkind, _⟩ | ⟨_, rfl⟩
    · exact absurd hkind hgroup
    · exact ⟨u, config₁, _, flags, hu, Option.some.inj (hk.symm.trans (Table.get?_set_self _ _ _))⟩

end BuildMeta.BuildConfig
