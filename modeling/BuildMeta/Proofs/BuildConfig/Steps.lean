import BuildMeta.BuildConfig.Make
import BuildMeta.Proofs.Options.Storing
import BuildMeta.Proofs.Repo.Verified

/-!
# `Proofs.BuildConfig.Steps` — what each step of making a configuration can do

One inversion lemma for each step that succeeds, so that later proofs never unfold the steps:
`storeExported_ok`, `storeDependencies_cons_of_passedOver` and `storeDependencies_cons_of_not`,
`load_ok`, `addInners_cons_ok`, `enter_ok`, `addRelease_ok`.  `Run` is the sequence of the steps over
several units, and `make_ok` cuts the making of a configuration into its start and such a run.
-/

namespace BuildMeta.BuildConfig

variable {plan : Plan} {graph : Digraph} {base options : Table String} {u v : SourceUnit}
  {units units' : Table SourceUnit} {config config' : BuildConfig} {name : String}
  {names : List String} {optionsOf : SourceUnit → Logged (Table String)}

/-! ## Loading exported rules -/

/-- The unit with its exported rules replaced. -/
def withExported (u : SourceUnit) (cap defs : List Rule) : SourceUnit := { u with cap, defs }

/-- What storing the exported rules of a unit does, and that it does nothing else. -/
theorem storeExported_ok {out : Table String × Table SourceUnit} :
    (storeExported plan units name options).outcome = .ok out ↔
      ∃ u middle cap defs, units.get? name = some u ∧
        (plan.store options u.cap).outcome = .ok (middle, cap) ∧
        (plan.store middle u.defs).outcome = .ok (out.1, defs) ∧
        out.2 = units.set name (withExported u cap defs) := by
  unfold storeExported
  cases hu : units.get? name with
  | none =>
    constructor
    · intro h
      cases h
    · rintro ⟨u, _, _, _, h, _⟩
      cases h
  | some u =>
    constructor
    · intro h
      obtain ⟨⟨middle, cap⟩, hcap, hrest⟩ := Logged.outcome_bind_eq_ok_iff.mp h
      obtain ⟨⟨last, defs⟩, hdefs, hout⟩ := Logged.outcome_bind_eq_ok_iff.mp hrest
      cases hout
      exact ⟨u, middle, cap, defs, rfl, hcap, hdefs, rfl⟩
    · rintro ⟨u', middle, cap, defs, hu', hcap, hdefs, hout⟩
      cases hu'
      refine Logged.outcome_bind_eq_ok_iff.mpr ⟨(middle, cap), hcap, ?_⟩
      refine Logged.outcome_bind_eq_ok_iff.mpr ⟨(out.1, defs), hdefs, ?_⟩
      rw [Logged.outcome_pure, Except.ok.injEq]
      exact Prod.ext rfl hout.symm

/-- A dependency whose rules are not loaded: one outside the repository, or a third-party directory. -/
def isPassedOver (config : BuildConfig) (name : String) : Bool :=
  config.externalDeps.contains name || config.thirdParties.has name

theorem storeDependencies_cons_of_passedOver (h : isPassedOver config name = true) :
    storeDependencies plan config (name :: names) units options
      = storeDependencies plan config names units options := by
  rw [storeDependencies]
  exact if_pos h

theorem storeDependencies_cons_of_not (h : isPassedOver config name = false) :
    storeDependencies plan config (name :: names) units options
      = storeExported plan units name options >>= fun out =>
          storeDependencies plan config names out.2 out.1 := by
  rw [storeDependencies]
  exact if_neg (ne_true_of_eq_false h)

/-- What loading a unit gives: the names below it, the values of what these export, and the options that
    the unit itself exports. -/
theorem load_ok {loaded : Loaded} :
    (load plan graph base u units config).outcome = .ok (loaded, units') ↔
      ∃ levels options unitsBelow named,
        graph.levelsFrom (graph.children u.name) = .ok levels ∧ loaded.below = levels.flatten ∧
        (storeDependencies plan config levels.flatten units base).outcome = .ok (options, unitsBelow) ∧
        nameDebugFile plan config.root u options = .ok named ∧
        (plan.evaluate [] named ∅).outcome = .ok loaded.depValues ∧
        (storeExported plan unitsBelow u.name named).outcome = .ok (loaded.exported, units') := by
  unfold load
  constructor
  · intro h
    obtain ⟨levels, hlevels, hrest⟩ := Logged.outcome_bind_eq_ok_iff.mp h
    obtain ⟨⟨options, unitsBelow⟩, hdeps, hrest⟩ := Logged.outcome_bind_eq_ok_iff.mp hrest
    obtain ⟨named, hnamed, hrest⟩ := Logged.outcome_bind_eq_ok_iff.mp hrest
    obtain ⟨depValues, hvalues, hrest⟩ := Logged.outcome_bind_eq_ok_iff.mp hrest
    obtain ⟨⟨exported, unitsAll⟩, hexported, hout⟩ := Logged.outcome_bind_eq_ok_iff.mp hrest
    cases hout
    exact ⟨levels, options, unitsBelow, named, hlevels, rfl, hdeps, hnamed, hvalues, hexported⟩
  · rintro ⟨levels, options, unitsBelow, named, hlevels, hbelow, hdeps, hnamed, hvalues, hexported⟩
    refine Logged.outcome_bind_eq_ok_iff.mpr ⟨levels, hlevels, ?_⟩
    refine Logged.outcome_bind_eq_ok_iff.mpr ⟨(options, unitsBelow), hdeps, ?_⟩
    refine Logged.outcome_bind_eq_ok_iff.mpr ⟨named, hnamed, ?_⟩
    refine Logged.outcome_bind_eq_ok_iff.mpr ⟨loaded.depValues, hvalues, ?_⟩
    refine Logged.outcome_bind_eq_ok_iff.mpr ⟨(loaded.exported, units'), hexported, ?_⟩
    rw [Logged.outcome_pure, ← hbelow]

/-! ## Packages of a group -/

/-- A configured package keeps what its unit says, apart from the rules. -/
structure InnerOf (p : SourceUnit) (k : InnerConfig) : Prop where
  name : k.name = p.name
  path : k.path = p.path
  deps : k.deps = p.deps
  kind : k.kind = p.kind

/-- The entry of a package repeats what its unit says of it. -/
theorem innerOf_of_inner? {known : Table String} {p : SourceUnit} {k : InnerConfig}
    (h : (inner? plan options known p).outcome = .ok (some k)) : InnerOf p k := by
  unfold inner? at h
  obtain ⟨_, _, hrest⟩ := Logged.outcome_bind_eq_ok_iff.mp h
  obtain ⟨values, _, hrest⟩ := Logged.outcome_bind_eq_ok_iff.mp hrest
  by_cases hsupported : isUnsupported values = true
  · rw [if_pos hsupported] at hrest
    obtain ⟨_, _, hout⟩ := Logged.outcome_bind_eq_ok_iff.mp hrest
    cases hout
  · rw [if_neg hsupported] at hrest
    obtain ⟨flags, _, hout⟩ := Logged.outcome_bind_eq_ok_iff.mp hrest
    cases hout
    exact ⟨rfl, rfl, rfl, rfl⟩

theorem outcome_announceEvaluation : (announceEvaluation plan name).outcome = .ok () := by
  unfold announceEvaluation
  split <;> rfl

/-- A package gets an entry if its options can be evaluated, do not forbid it, and make flags. -/
theorem exists_inner? {known values : Table String} {p : SourceUnit} {flags : BuildFlags}
    (hvalues : (plan.evaluate plan.watched options (known.set (locationKey p.name) p.path)).outcome
      = .ok values)
    (hsupported : isUnsupported values = false)
    (hflags : BuildFlags.ofOptions plan.style values = .ok flags) :
    ∃ k, (inner? plan options known p).outcome = .ok (some k) := by
  unfold inner?
  simp only [Logged.outcome_bind, outcome_announceEvaluation, hvalues, Failure.ok_bind, hsupported,
    Bool.false_eq_true, if_false, Logged.outcome_lift, hflags]
  exact ⟨_, rfl⟩

/-- What becomes of the first of several packages: it is left out, or configured and listed. -/
theorem addInners_cons_ok {known : Table String} {inners : Table InnerConfig}
    {out : List String × Table InnerConfig} :
    (addInners plan optionsOf known units (name :: names) inners).outcome = .ok out →
      ∃ p options, units.get? name = some p ∧ (optionsOf p).outcome = .ok options ∧
        (((inner? plan options known p).outcome = .ok none ∧
          (addInners plan optionsOf known units names inners).outcome = .ok out) ∨
        ∃ k rest, (inner? plan options known p).outcome = .ok (some k) ∧
          (addInners plan optionsOf known units names (inners.set name k)).outcome
            = .ok (rest, out.2) ∧ out.1 = name :: rest) := by
  intro h
  rw [addInners] at h
  cases hp : units.get? name with
  | none => rw [hp] at h; cases h
  | some p =>
    rw [hp] at h
    obtain ⟨options, hoptions, hrest⟩ := Logged.outcome_bind_eq_ok_iff.mp h
    refine ⟨p, options, rfl, hoptions, ?_⟩
    obtain ⟨result, hresult, hrest⟩ := Logged.outcome_bind_eq_ok_iff.mp hrest
    cases result with
    | none => exact Or.inl ⟨hresult, hrest⟩
    | some k =>
      obtain ⟨⟨rest, inners'⟩, hmore, hout⟩ := Logged.outcome_bind_eq_ok_iff.mp hrest
      cases hout
      exact Or.inr ⟨k, rest, hresult, hmore, rfl⟩

/-- Such a package goes before those behind it in the list of members. -/
theorem addInners_cons_of_inner? {known options : Table String} {inners inners' : Table InnerConfig}
    {p : SourceUnit} {k : InnerConfig} {rest : List String} (hp : units.get? name = some p)
    (hoptions : (optionsOf p).outcome = .ok options)
    (hinner : (inner? plan options known p).outcome = .ok (some k))
    (hrest : (addInners plan optionsOf known units names (inners.set name k)).outcome
      = .ok (rest, inners')) :
    (addInners plan optionsOf known units (name :: names) inners).outcome
      = .ok (name :: rest, inners') := by
  rw [addInners, hp]
  simp only [Logged.outcome_bind, hoptions, hinner, Failure.ok_bind, hrest]
  rfl

/-! ## Entering a unit -/

/-- The dependencies of a unit that are recorded: those that are units of release. -/
def innerDeps (config : BuildConfig) (u : SourceUnit) : List String :=
  u.deps.filter (!config.externalDeps.contains ·)

/-- A unit is entered as a group with those of its packages that can be built, or as a package. -/
theorem enter_ok {below : List String} {flags : BuildFlags}
    (h : (enter plan u below optionsOf flags units config).outcome = .ok config') :
    (u.kind = .group ∧ ∃ members inners g,
      (addInners plan optionsOf (location u) units u.members config.inners).outcome
        = .ok (members, inners) ∧
      g.deps = innerDeps config u ∧ g.members = members ∧ g.flags = flags ∧
      config' = { config with inners, groups := config.groups.set u.name g }) ∨
    (u.kind ≠ .group ∧ ∃ p, PackageConfig.deps p = innerDeps config u ∧ p.flags = flags ∧
      config' = { config with standAlones := config.standAlones.set u.name p }) := by
  unfold enter at h
  by_cases hkind : (u.kind == .group) = true
  · rw [if_pos hkind] at h
    obtain ⟨⟨members, inners⟩, hinners, hout⟩ := Logged.outcome_bind_eq_ok_iff.mp h
    cases hout
    exact Or.inl ⟨by simpa using hkind, members, inners, _, hinners, rfl, rfl, rfl, rfl⟩
  · rw [if_neg hkind] at h
    cases h
    exact Or.inr ⟨by simpa using hkind, _, rfl, rfl, rfl⟩

/-! ## One unit of release -/

/-- A unit of release is left out because its exported options say so, or entered with the flags that
    its internal options give. -/
theorem addRelease_ok :
    (addRelease plan graph base u units config).outcome = .ok (units', config') ↔
    ∃ loaded exportValues,
      (load plan graph base u units config).outcome = .ok (loaded, units') ∧
      (plan.evaluate [] loaded.exported (location u)).outcome = .ok exportValues ∧
      ((isUnsupported exportValues = true ∧ config' = config) ∨
        (isUnsupported exportValues = false ∧ ∃ internal rules values flags,
          (plan.store loaded.exported u.opts).outcome = .ok (internal, rules) ∧
          (plan.evaluate plan.watched internal (location u)).outcome = .ok values ∧
          releaseFlags plan u.name loaded.depValues exportValues values = .ok flags ∧
          (enter plan u loaded.below (memberOptions plan internal) flags units' config).outcome
            = .ok config')) := by
  unfold addRelease
  constructor
  · intro h
    obtain ⟨⟨loaded, units₁⟩, hload, hrest⟩ := Logged.outcome_bind_eq_ok_iff.mp h
    obtain ⟨exportValues, hvalues, hrest⟩ := Logged.outcome_bind_eq_ok_iff.mp hrest
    by_cases hsupported : isUnsupported exportValues = true
    · rw [if_pos hsupported] at hrest
      obtain ⟨_, _, hout⟩ := Logged.outcome_bind_eq_ok_iff.mp hrest
      cases hout
      exact ⟨loaded, exportValues, hload, hvalues, Or.inl ⟨hsupported, rfl⟩⟩
    · rw [if_neg hsupported] at hrest
      obtain ⟨⟨internal, rules⟩, hinternal, hrest⟩ := Logged.outcome_bind_eq_ok_iff.mp hrest
      obtain ⟨_, _, hrest⟩ := Logged.outcome_bind_eq_ok_iff.mp hrest
      obtain ⟨values, hvalues', hrest⟩ := Logged.outcome_bind_eq_ok_iff.mp hrest
      obtain ⟨flags, hflags, hrest⟩ := Logged.outcome_bind_eq_ok_iff.mp hrest
      obtain ⟨config₁, henter, hout⟩ := Logged.outcome_bind_eq_ok_iff.mp hrest
      cases hout
      exact ⟨loaded, exportValues, hload, hvalues, Or.inr ⟨by simpa using hsupported, internal, rules,
        values, flags, hinternal, hvalues', hflags, henter⟩⟩
  · rintro ⟨loaded, exportValues, hload, hvalues, hcase⟩
    refine Logged.outcome_bind_eq_ok_iff.mpr ⟨(loaded, units'), hload, ?_⟩
    refine Logged.outcome_bind_eq_ok_iff.mpr ⟨exportValues, hvalues, ?_⟩
    rcases hcase with ⟨hskip, rfl⟩ | ⟨hsupported, internal, rules, values, flags, hinternal, hvalues',
      hflags, henter⟩
    · rw [if_pos hskip]
      rfl
    · rw [if_neg (ne_true_of_eq_false hsupported)]
      refine Logged.outcome_bind_eq_ok_iff.mpr ⟨(internal, rules), hinternal, ?_⟩
      refine Logged.outcome_bind_eq_ok_iff.mpr ⟨(), outcome_announceEvaluation, ?_⟩
      refine Logged.outcome_bind_eq_ok_iff.mpr ⟨values, hvalues', ?_⟩
      refine Logged.outcome_bind_eq_ok_iff.mpr ⟨flags, hflags, ?_⟩
      exact Logged.outcome_bind_eq_ok_iff.mpr ⟨config', henter, rfl⟩

/-! ## Several units of release -/

/-- Units of release are configured in turn, each as the steps before it have left it. -/
inductive Run (plan : Plan) (graph : Digraph) (base : Table String) :
    List SourceUnit → Table SourceUnit → BuildConfig → Table SourceUnit → BuildConfig → Prop
  | done (units : Table SourceUnit) (config : BuildConfig) :
      Run plan graph base [] units config units config
  | step {u : SourceUnit} {us : List SourceUnit} {units units₁ units₂ : Table SourceUnit}
      {config config₁ config₂ : BuildConfig}
      (hstep : (addRelease plan graph base (units.getD u.name u) units config).outcome
        = .ok (units₁, config₁))
      (hrest : Run plan graph base us units₁ config₁ units₂ config₂) :
      Run plan graph base (u :: us) units config units₂ config₂

/-- **Configuring units in turn is a run.**  Facts on whole configurations are proved by induction
    on the run. -/
theorem addReleases_ok {us : List SourceUnit} :
    (addReleases plan graph base us units config).outcome = .ok config' ↔
      ∃ units', Run plan graph base us units config units' config' := by
  induction us generalizing units config with
  | nil =>
    constructor
    · intro h
      cases h
      exact ⟨units, .done units config'⟩
    · rintro ⟨_, ⟨⟩⟩
      rfl
  | cons u us ih =>
    rw [addReleases, Logged.outcome_bind_eq_ok_iff]
    constructor
    · rintro ⟨⟨units₁, config₁⟩, hstep, hrest⟩
      obtain ⟨units₂, hrun⟩ := ih.mp hrest
      exact ⟨units₂, .step hstep hrun⟩
    · rintro ⟨units₂, hrun⟩
      cases hrun with
      | step hstep hrest => exact ⟨(_, _), hstep, ih.mpr ⟨units₂, hrest⟩⟩

/-- A run over two lists is two runs. -/
theorem run_append {us vs : List SourceUnit} :
    Run plan graph base (us ++ vs) units config units' config' ↔
      ∃ units₁ config₁, Run plan graph base us units config units₁ config₁ ∧
        Run plan graph base vs units₁ config₁ units' config' := by
  induction us generalizing units config with
  | nil =>
    constructor
    · intro h
      exact ⟨units, config, .done units config, h⟩
    · rintro ⟨_, _, ⟨⟩, h⟩
      exact h
  | cons u us ih =>
    constructor
    · intro h
      cases h with
      | step hstep hrest =>
        obtain ⟨units₁, config₁, hus, hvs⟩ := ih.mp hrest
        exact ⟨units₁, config₁, .step hstep hus, hvs⟩
    · rintro ⟨units₁, config₁, hus, hvs⟩
      cases hus with
      | step hstep hrest => exact .step hstep (ih.mpr ⟨units₁, config₁, hrest, hvs⟩)

/-! ## The whole configuration -/

/-- The configuration before any unit is added knows the names outside the repository and the third-party
    directories. -/
theorem start_ok {c : Context} {defaults : List Rule}
    (h : (start plan c defaults).outcome = .ok (base, config)) :
    (∃ rules, (Options.storeRules plan.target plan.watched initialOptions defaults).outcome
      = .ok (base, rules)) ∧
    config.externalDeps = c.releaseGraph.externalNodes ∧
    config.thirdParties = c.releases.filter (fun _ u => u.kind == .thirdParty) ∧
    config.groups = ∅ ∧ config.standAlones = ∅ ∧ config.inners = ∅ := by
  unfold start at h
  obtain ⟨⟨base', rules⟩, hbase, hrest⟩ := Logged.outcome_bind_eq_ok_iff.mp h
  obtain ⟨values, _, hrest⟩ := Logged.outcome_bind_eq_ok_iff.mp hrest
  obtain ⟨flags, _, hout⟩ := Logged.outcome_bind_eq_ok_iff.mp hrest
  cases hout
  exact ⟨⟨rules, hbase⟩, rfl, rfl, rfl, rfl, rfl⟩

/-- A configuration is made by a start and a run over all units of release but the third-party
    directories; the names of shared objects are added at the end. -/
theorem make_ok {c : Context} {defaults : List Rule} :
    (make plan c defaults).outcome = .ok config' ↔
    ∃ base config units' configured,
      (start plan c defaults).outcome = .ok (base, config) ∧
      Run plan c.releaseGraph base (configurable c) c.units config units' configured ∧
      config' = { configured with
        sonames := sonamesFrom plan.environment c.releases.keys } := by
  unfold make
  constructor
  · intro h
    obtain ⟨⟨base, config⟩, hstart, hrest⟩ := Logged.outcome_bind_eq_ok_iff.mp h
    obtain ⟨configured, hrun, hout⟩ := Logged.outcome_bind_eq_ok_iff.mp hrest
    obtain ⟨units', hrun⟩ := addReleases_ok.mp hrun
    cases hout
    exact ⟨base, config, units', configured, hstart, hrun, rfl⟩
  · rintro ⟨base, config, units', configured, hstart, hrun, rfl⟩
    refine Logged.outcome_bind_eq_ok_iff.mpr ⟨(base, config), hstart, ?_⟩
    exact Logged.outcome_bind_eq_ok_iff.mpr ⟨configured, addReleases_ok.mpr ⟨units', hrun⟩, rfl⟩

end BuildMeta.BuildConfig
