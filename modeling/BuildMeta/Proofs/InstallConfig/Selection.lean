import BuildMeta.InstallConfig
import BuildMeta.Proofs.Digraph.TopologicalOrder

/-!
# `Proofs.InstallConfig.Selection` — which units a selection installs

A selection either fails and leaves the installation as it was, or replaces the selected units and
nothing else.  `select_of_unknown`, `select_of_cycle`, `select_everything`, `select_targets` and
`select_below` say which of the two happens when; each of them carries the change out step by step, so
that an assignment made before a failure would show.

With dependencies, the selected units are those below the targets.  This is the least set that holds the
targets and, with every unit, what the unit depends on (`reachFrom_leastClosed`).
-/

namespace BuildMeta

/-! ## Sets that are closed under dependencies -/

namespace Digraph

variable {g : Digraph} {roots : List String}

/-- With every node, a set holds the children of the node. -/
def ChildClosed (g : Digraph) (S : String → Prop) : Prop := ∀ ⦃m n⦄, S m → g.Edge m n → S n

/-- The least set that holds the roots and is closed under edges. -/
structure LeastClosed (g : Digraph) (roots : List String) (S : String → Prop) : Prop where
  start : ∀ r ∈ roots, S r
  closed : g.ChildClosed S
  least : ∀ T : String → Prop, (∀ r ∈ roots, T r) → g.ChildClosed T → ∀ n, S n → T n

theorem ChildClosed.reach {S : String → Prop} (h : g.ChildClosed S) {m n : String} (hm : S m)
    (hreach : g.Reach m n) : S n := by
  induction hreach with
  | refl => exact hm
  | tail _ hedge ih => exact h ih hedge

theorem reachFrom_leastClosed (g : Digraph) (roots : List String) :
    g.LeastClosed roots (g.ReachFrom roots) where
  start := fun _ hr => reachFrom_of_mem hr
  closed := fun _ _ hm hedge => hm.tail hedge
  least := by
    intro T hroots hclosed n hn
    obtain ⟨r, hr, hreach⟩ := hn
    exact hclosed.reach (hroots r hr) hreach

end Digraph

namespace InstallConfig

variable {c : InstallConfig} {targets : String} {withDeps : Bool} {graph : Digraph}

theorem installs_iff {n : String} : c.installs n = true ↔ n ∈ c.selected := List.contains_iff_mem

/-! ## Carrying a selection out -/

theorem on_setSelected (c : InstallConfig) (names : List String) :
    (setSelected names).on c = (.ok (), { c with selected := names }) := rfl

/-- Without targets every unit of the graph is selected. -/
theorem select_everything (c : InstallConfig) (withDeps : Bool) (graph : Digraph) :
    (select "" withDeps graph).on c = (.ok (), { c with selected := Text.sort graph.keys }) := rfl

/-- Whether all targets are units of the graph is looked up name by name. -/
theorem any_not_has_iff {names : List String} :
    names.any (!graph.has ·) = true ↔ ∃ t ∈ names, t ∉ graph.keys := by
  rw [List.any_eq_true]
  refine exists_congr fun t => and_congr_right fun _ => ?_
  rw [Bool.not_eq_true', ← Bool.not_eq_true, Table.has_iff]

theorem select_of_unknown (c : InstallConfig) (withDeps : Bool) (htargets : targets ≠ "")
    (hunknown : ∃ t ∈ Text.split ',' targets, t ∉ graph.keys) :
    (select targets withDeps graph).on c = (.error .invalidInstallTarget, c) := by
  have hany := any_not_has_iff.mpr hunknown
  unfold select
  rw [if_neg (by simpa using htargets), if_pos hany]
  rfl

/-- Past the check of the targets, the order of what they depend on decides. -/
theorem select_of_known (c : InstallConfig) (htargets : targets ≠ "")
    (hknown : ∀ t ∈ Text.split ',' targets, t ∈ graph.keys) :
    (select targets withDeps graph).on c
      = (if withDeps then do setSelected (Text.sort (← graph.orderFrom (Text.split ',' targets)))
          else setSelected (Text.split ',' targets) : Change Unit).on c := by
  have hany : ¬ (Text.split ',' targets).any (!graph.has ·) = true := by
    rw [any_not_has_iff]
    rintro ⟨t, ht, hnot⟩
    exact hnot (hknown t ht)
  unfold select
  rw [if_neg (by simpa using htargets), if_neg hany]

/-- Without dependencies the targets themselves are selected. -/
theorem select_targets (c : InstallConfig) (htargets : targets ≠ "")
    (hknown : ∀ t ∈ Text.split ',' targets, t ∈ graph.keys) :
    (select targets false graph).on c = (.ok (), { c with selected := Text.split ',' targets }) := by
  rw [select_of_known c htargets hknown]
  exact on_setSelected c _

/-- With dependencies, the units below the targets are selected. -/
theorem select_below (c : InstallConfig) (htargets : targets ≠ "")
    (hknown : ∀ t ∈ Text.split ',' targets, t ∈ graph.keys) {order : List String}
    (horder : graph.orderFrom (Text.split ',' targets) = .ok order) :
    (select targets true graph).on c = (.ok (), { c with selected := Text.sort order }) := by
  rw [select_of_known c htargets hknown, if_pos rfl, horder]
  rfl

/-- The search for an order ends at a cycle before anything is assigned. -/
theorem select_of_cycle (c : InstallConfig) (htargets : targets ≠ "")
    (hknown : ∀ t ∈ Text.split ',' targets, t ∈ graph.keys) {e : Failure}
    (hfail : graph.orderFrom (Text.split ',' targets) = .error e) :
    (select targets true graph).on c = (.error e, c) := by
  rw [select_of_known c htargets hknown, if_pos rfl, hfail]
  rfl

/-! ## Which units are selected -/

/-- A selection that cannot be made: a target is no unit of the graph, or the dependencies of the targets
    are asked for and run into a cycle. -/
def Refused (targets : String) (withDeps : Bool) (graph : Digraph) : Prop :=
  targets ≠ "" ∧ ((∃ t ∈ Text.split ',' targets, t ∉ graph.keys) ∨
    withDeps = true ∧ graph.CycleBelow (Text.split ',' targets))

/-- The units that a selection is meant to install. -/
def Wanted (targets : String) (withDeps : Bool) (graph : Digraph) (n : String) : Prop :=
  if targets = "" then n ∈ graph.keys
  else if withDeps = true then graph.ReachFrom (Text.split ',' targets) n
  else n ∈ Text.split ',' targets

/-- A selection that is refused leaves the configuration as it was. -/
theorem select_of_refused (c : InstallConfig) (h : Refused targets withDeps graph) :
    ∃ e, (select targets withDeps graph).on c = (.error e, c) := by
  obtain ⟨htargets, hwhy⟩ := h
  by_cases hunknown : ∃ t ∈ Text.split ',' targets, t ∉ graph.keys
  · exact ⟨_, select_of_unknown c withDeps htargets hunknown⟩
  · have hknown : ∀ t ∈ Text.split ',' targets, t ∈ graph.keys := fun t ht =>
      Classical.byContradiction fun hnot => hunknown ⟨t, ht, hnot⟩
    obtain ⟨hdeps, hcyc⟩ := hwhy.resolve_left hunknown
    subst hdeps
    -- An order of nodes below the targets would leave no room for the cycle.
    rcases Digraph.orderFrom_settles graph (Text.split ',' targets) with
      ⟨order, _, hordered, hmem⟩ | ⟨⟨path, hfail⟩, _⟩
    · have hnone := hordered.not_cycleBelow fun t ht => (hmem t).mpr (Digraph.reachFrom_of_mem ht)
      exact absurd hcyc hnone
    · exact ⟨_, select_of_cycle c htargets hknown hfail⟩

/-- A selection that is not refused succeeds, and changes nothing but the selected names. -/
theorem select_of_not_refused (c : InstallConfig) (h : ¬ Refused targets withDeps graph) :
    ∃ names, (select targets withDeps graph).on c = (.ok (), { c with selected := names }) ∧
      ∀ n, n ∈ names ↔ Wanted targets withDeps graph n := by
  unfold Wanted
  by_cases htargets : targets = ""
  · subst htargets
    refine ⟨_, select_everything c withDeps graph, fun n => ?_⟩
    rw [if_pos rfl, Text.mem_sort]
  · have hknown : ∀ t ∈ Text.split ',' targets, t ∈ graph.keys := fun t ht =>
      Classical.byContradiction fun hnot => h ⟨htargets, Or.inl ⟨t, ht, hnot⟩⟩
    cases withDeps with
    | false =>
      refine ⟨_, select_targets c htargets hknown, fun n => ?_⟩
      simp [htargets]
    | true =>
      rcases Digraph.orderFrom_settles graph (Text.split ',' targets) with
        ⟨order, horder, _, hmem⟩ | ⟨_, hcyc⟩
      · refine ⟨_, select_below c htargets hknown horder, fun n => ?_⟩
        simp [htargets, hmem]
      · exact absurd ⟨htargets, Or.inr ⟨rfl, hcyc⟩⟩ h

/-- After a selection that was made, the units that it is meant to install are installed, and no
    others. -/
theorem installs_iff_wanted {c' : InstallConfig}
    (h : (select targets withDeps graph).on c = (.ok (), c')) (n : String) :
    c'.installs n = true ↔ Wanted targets withDeps graph n := by
  by_cases hrefused : Refused targets withDeps graph
  · obtain ⟨e, hfail⟩ := select_of_refused c hrefused
    rw [hfail] at h
    cases h
  · obtain ⟨names, hout, hmem⟩ := select_of_not_refused c hrefused
    rw [hout] at h
    cases h
    exact installs_iff.trans (hmem n)

/-- **A selection is made as a whole or not at all.**  It fails exactly if a target is no unit of
    the graph, or dependencies are asked for and a cycle lies below a target, and then the
    installation is as it was. Otherwise only the selected units change.  Installed are then all
    units of the graph if no targets were given, the targets themselves without dependencies, and
    with dependencies the nodes below the targets: the least set that holds the targets and, with
    every unit, all that the unit depends on. -/
theorem select_whole_or_not (c : InstallConfig) (targets : String) (withDeps : Bool)
    (graph : Digraph) :
    ((∃ e, (select targets withDeps graph).on c = (.error e, c)) ↔ Refused targets withDeps graph) ∧
    (¬ Refused targets withDeps graph → ∃ c', (select targets withDeps graph).on c = (.ok (), c') ∧
      c' = { c with selected := c'.selected } ∧
      (targets = "" → ∀ n, c'.installs n = true ↔ n ∈ graph.keys) ∧
      (targets ≠ "" → withDeps = false →
        ∀ n, c'.installs n = true ↔ n ∈ Text.split ',' targets) ∧
      (targets ≠ "" → withDeps = true →
        (∀ n, c'.installs n = true ↔ graph.ReachFrom (Text.split ',' targets) n) ∧
        graph.LeastClosed (Text.split ',' targets) fun n => c'.installs n = true)) := by
  constructor
  · refine ⟨?_, select_of_refused c⟩
    rintro ⟨e, hfail⟩
    by_contra hallowed
    obtain ⟨names, hout, _⟩ := select_of_not_refused c hallowed
    rw [hfail] at hout
    cases hout
  · intro hallowed
    obtain ⟨names, hout, hmem⟩ := select_of_not_refused c hallowed
    have hinstalls : ∀ n, ({ c with selected := names } : InstallConfig).installs n = true ↔
        Wanted targets withDeps graph n := fun n => installs_iff.trans (hmem n)
    refine ⟨_, hout, rfl, ?_, ?_, ?_⟩
    · intro hempty n
      rw [hinstalls, Wanted, if_pos hempty]
    · intro hsome hdeps n
      rw [hinstalls, Wanted, if_neg hsome, if_neg (by rw [hdeps]; decide)]
    · intro hsome hdeps
      have hreach : ∀ n, ({ c with selected := names } : InstallConfig).installs n = true ↔
          graph.ReachFrom (Text.split ',' targets) n := by
        intro n
        rw [hinstalls, Wanted, if_neg hsome, if_pos hdeps]
      refine ⟨hreach, ?_⟩
      have heq : (fun n => ({ c with selected := names } : InstallConfig).installs n = true)
          = graph.ReachFrom (Text.split ',' targets) := funext fun n => propext (hreach n)
      rw [heq]
      exact Digraph.reachFrom_leastClosed graph _

end InstallConfig

end BuildMeta
