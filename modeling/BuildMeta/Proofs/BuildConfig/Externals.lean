import BuildMeta.Proofs.BuildConfig.Entries
import Mathlib

/-!
# `Proofs.BuildConfig.Externals` — dependencies from outside the repository

The names below a unit of release are found level by level from its direct dependencies, which may
be from outside the repository themselves.  Those that are no units of release are what its entry
records as external (`mem_externalBelow`).  `Accounting` is the invariant: every entry accounts for
all dependencies of its unit, direct or not.  Every step keeps it (`Accounting.step`), and so does a
run (`Accounting.run`).
-/

namespace BuildMeta.BuildConfig

open Relation

variable {plan : Plan} {base : Table String} {u : SourceUnit} {units units' : Table SourceUnit}
  {config config' : BuildConfig} {c : Context} {defaults : List Rule} {n : String}

/-! ## What an entry records -/

/-- An entry with these dependencies and external dependencies accounts for a unit of release: the
    first are its own dependencies among the units of release, the others all names that can be
    reached from it and are no units of release. -/
structure AccountsFor (c : Context) (u : SourceUnit) (deps externalDeps : List String) : Prop where
  internal : ∀ n, n ∈ deps ↔ n ∈ u.deps ∧ n ∈ c.releases.keys
  external : ∀ n, n ∈ externalDeps ↔ c.releaseGraph.Reach u.name n ∧ n ∉ c.releases.keys

/-- A direct dependency is recorded on one side only. -/
theorem AccountsFor.either {deps externalDeps : List String} (h : AccountsFor c u deps externalDeps)
    (hu : c.releases.get? u.name = some u) (hn : n ∈ u.deps) : Xor (n ∈ deps) (n ∈ externalDeps) := by
  have hreach : c.releaseGraph.Reach u.name n :=
    ReflTransGen.single (Context.edge_releaseGraph.mpr ⟨u, hu, hn⟩)
  rw [h.internal, h.external]
  by_cases hkey : n ∈ c.releases.keys
  · exact Or.inl ⟨⟨hn, hkey⟩, fun hout => hout.2 hkey⟩
  · exact Or.inr ⟨⟨hreach, hkey⟩, fun hin => hkey hin.2⟩

/-- A name that is reached from a unit of release and is none itself is the end of an edge. -/
theorem path_of_reach (hu : c.releases.get? u.name = some u) (hreach : c.releaseGraph.Reach u.name n)
    (hn : n ∉ c.releases.keys) : TransGen c.releaseGraph.Edge u.name n := by
  rcases reflTransGen_iff_eq_or_transGen.mp hreach with rfl | hpath
  · exact absurd (Table.mem_keys_of_get? hu) hn
  · exact hpath

theorem mem_externalNodes_of_reach (hu : c.releases.get? u.name = some u)
    (hreach : c.releaseGraph.Reach u.name n) (hn : n ∉ c.releases.keys) :
    n ∈ c.releaseGraph.externalNodes := by
  obtain ⟨m, _, hedge⟩ := TransGen.tail'_iff.mp (path_of_reach hu hreach hn)
  rw [Digraph.mem_externalNodes, Context.keys_releaseGraph]
  exact ⟨hn, m, hedge⟩

/-- **The names below a unit that count as external are all those that are no units of release.** -/
theorem mem_externalBelow (hf : Faithful c config) (hu : c.releases.get? u.name = some u)
    {below : List String} (hbelow : c.releaseGraph.LevelsBelow u.name below) :
    n ∈ externalBelow config below ↔ c.releaseGraph.Reach u.name n ∧ n ∉ c.releases.keys := by
  unfold externalBelow
  rw [Text.mem_sortedSet, List.mem_filter, List.contains_iff_mem, hf.externalDeps, hbelow.mem_iff]
  constructor
  · rintro ⟨hpath, hout⟩
    rw [Digraph.mem_externalNodes, Context.keys_releaseGraph] at hout
    exact ⟨hpath.to_reflTransGen, hout.1⟩
  · rintro ⟨hreach, hn⟩
    exact ⟨path_of_reach hu hreach hn, mem_externalNodes_of_reach hu hreach hn⟩

theorem accountsFor_of_levels (hf : Faithful c config) (hu : c.releases.get? u.name = some u)
    {below : List String} (hbelow : c.releaseGraph.LevelsBelow u.name below) :
    AccountsFor c u (innerDeps config u) (externalBelow config below) where
  internal := fun _ => hf.mem_innerDeps hu
  external := fun _ => mem_externalBelow hf hu hbelow

/-! ## The invariant -/

/-- Every entry of a configuration accounts for its unit of release. -/
structure Accounting (c : Context) (config : BuildConfig) : Prop where
  group : ∀ ⦃name g⦄, config.groups.get? name = some g →
    ∃ u ∈ configurable c, u.name = name ∧ u.kind = .group ∧ AccountsFor c u g.deps g.externalDeps
  standAlone : ∀ ⦃name p⦄, config.standAlones.get? name = some p →
    ∃ u ∈ configurable c, u.name = name ∧ u.kind ≠ .group ∧ AccountsFor c u p.deps p.externalDeps

/-- **One step keeps the invariant**: the entry that it writes comes from the levels below its own
    unit. -/
theorem Accounting.step (ha : Accounting c config) (hf : Faithful c config)
    (hunits : SameUnits c.units units) (hu : u ∈ configurable c)
    (h : (addRelease plan c.releaseGraph base (units.getD u.name u) units config).outcome
      = .ok (units', config')) : Accounting c config' := by
  obtain ⟨cap, defs, hsame⟩ := hunits.getD (get?_units_of_mem_configurable hu)
  rw [hsame] at h
  obtain ⟨loaded, _, hload, _, ⟨_, rfl⟩ | ⟨_, _, _, _, _, _, _, _, henter⟩⟩ := addRelease_ok.mp h
  · exact ha
  · obtain ⟨levels, _, _, _, hlevels, hbelow, _⟩ := load_ok.mp hload
    have hlisted := Digraph.levelsBelow_of_levelsFrom hlevels
    rw [← hbelow] at hlisted
    have hentry := accountsFor_of_levels hf (mem_configurable.mp hu).1 hlisted
    rcases enter_entry henter with ⟨hkind, members, inners, _, rfl⟩ | ⟨hkind, rfl⟩
    · refine ⟨fun name g hg => ?_, ha.standAlone⟩
      rcases Table.of_get?_set hg with ⟨rfl, rfl⟩ | ⟨_, hold⟩
      · exact ⟨u, hu, rfl, hkind, hentry⟩
      · exact ha.group hold
    · refine ⟨ha.group, fun name p hp => ?_⟩
      rcases Table.of_get?_set hp with ⟨rfl, rfl⟩ | ⟨_, hold⟩
      · exact ⟨u, hu, rfl, hkind, hentry⟩
      · exact ha.standAlone hold

/-- **A run keeps the invariant.** -/
theorem Accounting.run {us : List SourceUnit} (ha : Accounting c config) (hf : Faithful c config)
    (hunits : SameUnits c.units units) (hus : ∀ u ∈ us, u ∈ configurable c)
    (h : Run plan c.releaseGraph base us units config units' config') : Accounting c config' := by
  induction h with
  | done => exact ha
  | step hstep _ ih =>
    have hu := hus _ List.mem_cons_self
    exact ih (ha.step hf hunits hu hstep) (hf.step hunits hu hstep)
      ((stable_sameUnits plan c.units).addRelease hunits hstep)
      fun w hw => hus w (List.mem_cons_of_mem _ hw)

/-- All turns together keep the accounting, which the start establishes. -/
theorem accounting_make (h : (make plan c defaults).outcome = .ok config) : Accounting c config := by
  obtain ⟨base, config₀, units', configured, hstart, hrun, rfl⟩ := make_ok.mp h
  obtain ⟨_, _, _, hgroups, halones, _⟩ := start_ok hstart
  have hempty : Accounting c config₀ := by
    refine ⟨fun name g hg => ?_, fun name p hp => ?_⟩
    · rw [hgroups] at hg
      cases hg
    · rw [halones] at hp
      cases hp
  have hend := hempty.run (faithful_start hstart) (SameUnits.refl _) (fun _ hu => hu) hrun
  exact ⟨hend.group, hend.standAlone⟩

/-! ## Configurations -/

/-- **Every entry records the external dependencies of its unit completely.**  They are the names
    that can be reached from the unit and are no units of release, through whatever units and
    third-party directories the path leads; the other dependencies of the entry are the direct ones
    that are units of release.  So a direct dependency is in exactly one of the two, and what any
    entry records as external is external for the whole configuration. -/
theorem make_externals (plan : Plan) (c : Context) (defaults : List Rule) (config : BuildConfig)
    (hmake : (make plan c defaults).outcome = .ok config) :
    (∀ name g, config.groups.get? name = some g → ∃ u, c.releases.get? name = some u ∧ u.kind = .group ∧
      (∀ n, n ∈ g.externalDeps ↔ c.releaseGraph.Reach name n ∧ n ∉ c.releases.keys) ∧
      (∀ n, n ∈ g.deps ↔ n ∈ u.deps ∧ n ∈ c.releases.keys) ∧
      (∀ n ∈ u.deps, Xor (n ∈ g.deps) (n ∈ g.externalDeps)) ∧
      ∀ n ∈ g.externalDeps, n ∈ config.externalDeps) ∧
    ∀ name p, config.standAlones.get? name = some p → ∃ u, c.releases.get? name = some u ∧
      u.kind ≠ .group ∧ u.kind ≠ .thirdParty ∧
      (∀ n, n ∈ p.externalDeps ↔ c.releaseGraph.Reach name n ∧ n ∉ c.releases.keys) ∧
      (∀ n, n ∈ p.deps ↔ n ∈ u.deps ∧ n ∈ c.releases.keys) ∧
      (∀ n ∈ u.deps, Xor (n ∈ p.deps) (n ∈ p.externalDeps)) ∧
      ∀ n ∈ p.externalDeps, n ∈ config.externalDeps := by
  have ha := accounting_make hmake
  have hf := faithful_make hmake
  have hknown : ∀ {u : SourceUnit} {deps externalDeps : List String}, u ∈ configurable c →
      AccountsFor c u deps externalDeps → ∀ n ∈ externalDeps, n ∈ config.externalDeps := by
    intro u deps externalDeps hu hentry n hn
    obtain ⟨hreach, hout⟩ := (hentry.external n).mp hn
    rw [hf.externalDeps]
    exact mem_externalNodes_of_reach (mem_configurable.mp hu).1 hreach hout
  constructor
  · intro name g hg
    obtain ⟨u, hu, rfl, hkind, hentry⟩ := ha.group hg
    have hrelease := (mem_configurable.mp hu).1
    exact ⟨u, hrelease, hkind, hentry.external, hentry.internal, fun n hn => hentry.either hrelease hn,
      hknown hu hentry⟩
  · intro name p hp
    obtain ⟨u, hu, rfl, hkind, hentry⟩ := ha.standAlone hp
    obtain ⟨hrelease, hthird⟩ := mem_configurable.mp hu
    exact ⟨u, hrelease, hkind, hthird, hentry.external, hentry.internal,
      fun n hn => hentry.either hrelease hn, hknown hu hentry⟩

/-! ## Units without rules -/

/-- A unit without rules and packages is configured with the default options. -/
theorem addRelease_plain (hfree : WithoutCommands c emptyFlagRules) (hf : Faithful c config)
    (hu : u ∈ configurable c) {levels : List (List String)}
    (hlevels : c.releaseGraph.levelsFrom (c.releaseGraph.children u.name) = .ok levels)
    (hrules : (levels.flatten.filterMap (loadedUnit? c)).flatMap exportedRules = [])
    (hexported : exportedRules u = []) (hopts : u.opts = []) (hmembers : u.members = [])
    (known : List (String × String)) (hknown : location u = .ofList known)
    (hvalues : (plainPlan.evaluate [] (optionsWith []) (.ofList known)).outcome
      = .ok (valuesWith known []))
    (hsupported : isUnsupported (valuesWith known []) = false)
    (hflags : (releaseFlags plainPlan u.name (valuesWith [] []) (valuesWith known [])
      (valuesWith known [])).isOk = true) :
    ∃ config', (addRelease plainPlan c.releaseGraph (optionsWith []) u c.units
        config).outcome = .ok (c.units, config') ∧
      (u.kind = .group → ∃ g, config'.groups = config.groups.set u.name g) ∧
      (u.kind ≠ .group → ∃ p, config'.standAlones = config.standAlones.set u.name p ∧
        config'.groups = config.groups) := by
  obtain ⟨flags, hturn⟩ := exists_addRelease_plain hfree hf hu hlevels hrules hexported hopts known
    hknown hvalues hsupported hflags
  have hinners : (addInners plainPlan (memberOptions plainPlan (optionsWith [])) (location u)
      c.units u.members config.inners).outcome = .ok ([], config.inners) := by
    rw [hmembers]
    rfl
  obtain ⟨config', henter⟩ : ∃ config', (enter plainPlan u levels.flatten
      (memberOptions plainPlan (optionsWith [])) flags c.units config).outcome
        = .ok config' := by
    unfold enter
    by_cases hkind : (u.kind == .group) = true
    · rw [if_pos hkind, Logged.outcome_bind, hinners]
      exact ⟨_, rfl⟩
    · rw [if_neg hkind]
      exact ⟨_, rfl⟩
  refine ⟨config', hturn config' henter, ?_, ?_⟩
  · intro hkind
    rcases enter_entry henter with ⟨_, _, _, _, rfl⟩ | ⟨hother, _⟩
    · exact ⟨_, rfl⟩
    · exact absurd hkind hother
  · intro hkind
    rcases enter_entry henter with ⟨hother, _⟩ | ⟨_, rfl⟩
    · exact absurd hother hkind
    · exact ⟨_, rfl, rfl⟩

/-! ## A repository with dependencies from outside -/

/-- A library that depends on a name from outside. -/
def plinth : SourceUnit :=
  { name := "plinth", path := "/r/plinth", kind := .standAlone, deps := ["libc"] }

/-- A group without packages that depends on the library and on a third-party directory. -/
def frame : SourceUnit :=
  { name := "frame", path := "/r/frame", kind := .group, deps := ["plinth", "zip"] }

/-- An application that depends on the group and on another name from outside. -/
def panel : SourceUnit :=
  { name := "panel", path := "/r/panel", kind := .application, deps := ["frame", "libm"] }

/-- The three units and the third-party directory. -/
def frameRepository : Context :=
  ((((Context.empty "/r").put plinth).put frame).put panel).put
    { name := "zip", path := "/r/zip", kind := .thirdParty }

theorem frameRepository_free : WithoutCommands frameRepository emptyFlagRules :=
  withoutCommands_of_entries (by decide +kernel) (by decide +kernel)

/-- Both units of the frame can be configured, in their order. -/
theorem make_frameRepository : ∃ config g p,
    (make plainPlan frameRepository emptyFlagRules).outcome = .ok config ∧
    config.groups.get? "frame" = some g ∧ config.standAlones.get? "panel" = some p := by
  obtain ⟨config₀, hstart⟩ := exists_start_plain frameRepository_free
  have hf₀ := faithful_start hstart
  have hplinth : plinth ∈ configurable frameRepository := List.mem_cons_self
  have hframe : frame ∈ configurable frameRepository := List.mem_cons_of_mem _ List.mem_cons_self
  have hpanel : panel ∈ configurable frameRepository :=
    List.mem_cons_of_mem _ (List.mem_cons_of_mem _ List.mem_cons_self)
  obtain ⟨config₁, hstep₁, _, _⟩ := addRelease_plain frameRepository_free hf₀ hplinth
    (show frameRepository.releaseGraph.levelsFrom (frameRepository.releaseGraph.children plinth.name)
      = .ok [["libc"]] by cbv) rfl rfl rfl rfl [("PLINTH_LOCN", "/r/plinth")]
    (Table.ext (by decide +kernel)) (by cbv) (by decide +kernel) (by cbv)
  have hf₁ := hf₀.step (SameUnits.refl _) hplinth hstep₁
  obtain ⟨config₂, hstep₂, hgroup, _⟩ := addRelease_plain frameRepository_free hf₁ hframe
    (show frameRepository.releaseGraph.levelsFrom (frameRepository.releaseGraph.children frame.name)
      = .ok [["libc", "zip"], ["plinth"]] by cbv) rfl rfl rfl rfl [("FRAME_LOCN", "/r/frame")]
    (Table.ext (by decide +kernel)) (by cbv) (by decide +kernel) (by cbv)
  have hf₂ := hf₁.step (SameUnits.refl _) hframe hstep₂
  obtain ⟨config₃, hstep₃, _, halone⟩ := addRelease_plain frameRepository_free hf₂ hpanel
    (show frameRepository.releaseGraph.levelsFrom (frameRepository.releaseGraph.children panel.name)
      = .ok [["libc", "libm", "zip"], ["plinth"], ["frame"]] by cbv) rfl rfl rfl rfl
    [("PANEL_LOCN", "/r/panel")] (Table.ext (by decide +kernel)) (by cbv) (by decide +kernel) (by cbv)
  obtain ⟨g, hg⟩ := hgroup rfl
  obtain ⟨p, hp, hkept⟩ := halone (by decide)
  have hrun : Run plainPlan frameRepository.releaseGraph (optionsWith []) [plinth, frame, panel]
      frameRepository.units config₀ frameRepository.units config₃ :=
    .step hstep₁ (.step hstep₂ (.step hstep₃ (.done _ _)))
  refine ⟨_, g, p, make_ok.mpr ⟨_, _, _, _, hstart, hrun, rfl⟩, ?_, ?_⟩
  · show config₃.groups.get? "frame" = some g
    rw [hkept, hg]
    exact Table.get?_set_self _ _ _
  · show config₃.standAlones.get? "panel" = some p
    rw [hp]
    exact Table.get?_set_self _ _ _

/-- The application records the name that only the library depends on, two units further down, and
    the group records the third-party directory as a unit of release. -/
theorem make_externals_frame : ∃ config g p,
    (make plainPlan frameRepository emptyFlagRules).outcome = .ok config ∧
    config.groups.get? "frame" = some g ∧ "zip" ∈ g.deps ∧ "zip" ∉ g.externalDeps ∧
    config.standAlones.get? "panel" = some p ∧ "libc" ∉ panel.deps ∧ "libc" ∈ p.externalDeps ∧
    "libm" ∈ p.externalDeps ∧ "libc" ∈ config.externalDeps := by
  obtain ⟨config, g, p, hmake, hg, hp⟩ := make_frameRepository
  obtain ⟨hgroups, halones⟩ := make_externals plainPlan frameRepository emptyFlagRules config hmake
  obtain ⟨u, hu, _, hexternal, hinternal, _, _⟩ := hgroups "frame" g hg
  obtain ⟨v, hv, _, _, houtside, _, _, hknown⟩ := halones "panel" p hp
  obtain rfl : frame = u := Option.some.inj hu
  obtain rfl : panel = v := Option.some.inj hv
  have hlibc : "libc" ∈ p.externalDeps := by
    refine (houtside "libc").mpr ⟨?_, by decide +kernel⟩
    refine ReflTransGen.head (b := "frame") ?_ (ReflTransGen.head (b := "plinth") ?_ (.single ?_))
    all_goals exact Digraph.hasEdge_iff.mp (by decide +kernel)
  refine ⟨config, g, p, hmake, hg, (hinternal "zip").mpr (by decide +kernel), fun hzip => ?_, hp,
    by decide, hlibc, ?_, hknown "libc" hlibc⟩
  · exact ((hexternal "zip").mp hzip).2 (by decide +kernel)
  · refine (houtside "libm").mpr ⟨.single (Digraph.hasEdge_iff.mp (by decide +kernel)), ?_⟩
    decide +kernel

end BuildMeta.BuildConfig
