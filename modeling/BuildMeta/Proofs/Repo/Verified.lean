import BuildMeta.Repo.Verify
import BuildMeta.Proofs.Digraph.Cycles
import BuildMeta.Proofs.Outcome

/-!
# `Proofs.Repo.Verified` — what the check of a repository establishes

The check looks for cycles in the graph of the units of release, in the graph of each group's packages
and in that of each package's components.  If it finds none, the first two kinds of graphs can be made
and have no cycles (`acyclic_of_verify`, `exists_acyclic_of_verify`).
-/

namespace BuildMeta

/-! ## Graphs made node by node -/

/-- A graph that is made by a step on each of some names has these as keys, and as edges what the steps
    give. -/
theorem Digraph.ofList_of_mapM {f : String → Except Failure (String × List String)}
    (hname : ∀ ⦃name node⦄, f name = .ok node → node.1 = name) {names : List String}
    {nodes : List (String × List String)} (h : names.mapM f = .ok nodes) :
    (∀ m, m ∈ (Table.ofList nodes).keys ↔ m ∈ names) ∧
    ∀ m n, Digraph.Edge (Table.ofList nodes) m n ↔ m ∈ names ∧ ∃ cs, f m = .ok (m, cs) ∧ n ∈ cs := by
  have hpair : ∀ m cs, (m, cs) ∈ nodes ↔ m ∈ names ∧ f m = .ok (m, cs) := by
    intro m cs
    rw [Failure.mem_mapM_iff h]
    constructor
    · rintro ⟨name, hin, hnode⟩
      obtain rfl : m = name := hname hnode
      exact ⟨hin, hnode⟩
    · rintro ⟨hin, hnode⟩
      exact ⟨m, hin, hnode⟩
  constructor
  · intro m
    rw [Table.mem_keys_ofList, List.mem_map]
    constructor
    · rintro ⟨⟨k, cs⟩, hin, rfl⟩
      exact ((hpair k cs).mp hin).1
    · intro hm
      obtain ⟨⟨k, cs⟩, hnode⟩ := Failure.exists_of_mapM h hm
      obtain rfl : k = m := hname hnode
      exact ⟨(k, cs), (hpair k cs).mpr ⟨hm, hnode⟩, rfl⟩
  · intro m n
    rw [edge_ofList]
    · simp only [hpair, and_assoc, exists_and_left]
    · intro k cs cs' hcs hcs'
      have heq := ((hpair k cs).mp hcs).2.symm.trans ((hpair k cs').mp hcs').2
      rw [Except.ok.injEq, Prod.mk.injEq] at heq
      exact heq.2

namespace Context

variable {c : Context} {tree : FileTree} {group : SourceUnit} {graph : Digraph} {m n : String}

/-! ## Units of release -/

theorem get?_releases {name : String} {u : SourceUnit} :
    c.releases.get? name = some u ↔ c.units.get? name = some u ∧ u.kind.isRelease = true :=
  Table.get?_filter_eq_some_iff

theorem named_releases {name : String} {u : SourceUnit} (h : c.releases.get? name = some u) :
    u.name = name := c.named (get?_releases.mp h).1

@[simp] theorem keys_releaseGraph : c.releaseGraph.keys = c.releases.keys := Table.keys_map _ _

/-- The children of a unit of release are its dependencies. -/
theorem children_releaseGraph {name : String} {u : SourceUnit}
    (h : c.releases.get? name = some u) : c.releaseGraph.children name = u.deps := by
  unfold Digraph.children releaseGraph Table.getD
  rw [Table.get?_map, h]
  rfl

/-- An edge leads from a unit of release to each of its dependencies. -/
theorem edge_releaseGraph : c.releaseGraph.Edge m n ↔ ∃ u, c.releases.get? m = some u ∧ n ∈ u.deps := by
  constructor
  · intro h
    have hm := Digraph.Edge.mem_keys h
    rw [keys_releaseGraph] at hm
    obtain ⟨u, hu⟩ := Table.mem_keys_iff.mp hm
    refine ⟨u, hu, ?_⟩
    rw [← children_releaseGraph hu]
    exact h
  · rintro ⟨u, hu, hn⟩
    show n ∈ c.releaseGraph.children m
    rw [children_releaseGraph hu]
    exact hn

/-! ## Packages of a group -/

/-- A package has a node in the graph of its group exactly if it is a unit of its own and an inner
    one. -/
theorem memberNode_eq_ok_iff {name : String} {node : String × List String} :
    c.memberNode name = .ok node ↔
      ∃ p, c.units.get? name = some p ∧ p.kind.isInner = true ∧ node = (name, p.deps) := by
  unfold memberNode
  cases c.units.get? name with
  | none => simp
  | some p =>
    by_cases hinner : p.kind.isInner = true
    · simp only [hinner, if_true, Except.ok.injEq, Option.some.injEq]
      exact ⟨fun h => ⟨p, rfl, hinner, h.symm⟩, fun ⟨q, hq, _, h⟩ => by rw [h, hq]⟩
    · simp only [hinner, Option.some.injEq]
      constructor
      · intro h
        cases h
      · rintro ⟨q, rfl, hinner', _⟩
        exact absurd hinner' hinner

theorem fst_of_memberNode ⦃name : String⦄ ⦃node :
    String × List String⦄ (h : c.memberNode name = .ok node) :
    node.1 = name := by
  obtain ⟨p, _, _, rfl⟩ := memberNode_eq_ok_iff.mp h
  rfl

/-- The graph of a group can be made if its members are packages inside groups. -/
theorem exists_packageGraph (hkind : group.kind = .group)
    (h : ∀ m ∈ group.members, ∃ p, c.units.get? m = some p ∧ p.kind.isInner = true) :
    ∃ graph, c.packageGraph group = .ok graph ∧ ∀ m, m ∈ graph.keys ↔ m ∈ group.members := by
  have hnodes : ∀ m ∈ group.members, ∃ node, c.memberNode m = .ok node := by
    intro m hm
    obtain ⟨p, hp, hinner⟩ := h m hm
    exact ⟨(m, p.deps), memberNode_eq_ok_iff.mpr ⟨p, hp, hinner, rfl⟩⟩
  obtain ⟨nodes, hmap⟩ := Failure.exists_mapM hnodes
  refine ⟨Table.ofList nodes, ?_, (Digraph.ofList_of_mapM fst_of_memberNode hmap).1⟩
  unfold packageGraph
  rw [if_neg (by simp [hkind]), hmap]
  rfl

/-- The graph of a group has the edges from its members to their dependencies. -/
theorem edge_packageGraph (h : c.packageGraph group = .ok graph) :
    graph.Edge m n ↔ m ∈ group.members ∧ ∃ p, c.units.get? m = some p ∧ n ∈ p.deps := by
  unfold packageGraph at h
  by_cases hkind : (group.kind != .group) = true
  · rw [if_pos hkind] at h
    cases h
  rw [if_neg hkind] at h
  obtain ⟨nodes, hnodes, hgraph⟩ := Failure.bind_eq_ok_iff.mp h
  cases hgraph
  rw [(Digraph.ofList_of_mapM fst_of_memberNode hnodes).2 m n]
  refine and_congr_right fun hm => ⟨?_, ?_⟩
  · rintro ⟨cs, hnode, hn⟩
    obtain ⟨p, hp, _, heq⟩ := memberNode_eq_ok_iff.mp hnode
    cases heq
    exact ⟨p, hp, hn⟩
  · rintro ⟨p, hp, hn⟩
    -- The unit of a member is an inner one, as the graph could be made.
    obtain ⟨node, hnode⟩ := Failure.exists_of_mapM hnodes hm
    obtain ⟨q, hq, _, rfl⟩ := memberNode_eq_ok_iff.mp hnode
    rw [hp, Option.some.injEq] at hq
    exact ⟨q.deps, hnode, hq ▸ hn⟩

/-! ## The check -/

theorem outcome_checkCycles {g : Digraph} : (checkCycles g).outcome = .ok true ↔ g.Acyclic := by
  rw [← Digraph.cycles_eq_nil_iff]
  unfold checkCycles
  cases g.cycles with
  | nil => exact ⟨fun _ => rfl, fun _ => rfl⟩
  | cons cycle rest =>
    refine ⟨fun h => ?_, fun h => by cases h⟩
    cases h

theorem outcome_check {name : String} {g : Except Failure Digraph} :
    (check name g).outcome = .ok true ↔ ∃ graph, g = .ok graph ∧ graph.Acyclic := by
  unfold check
  rw [Logged.outcome_bind, Logged.outcome_tell, Failure.ok_bind, Logged.outcome_bind_eq_ok_iff]
  simp only [outcome_checkCycles]
  rfl

/-- A repository in which no cycles are found has none among its units of release. -/
theorem acyclic_of_verify (h : (verify tree c).outcome = .ok true) : c.releaseGraph.Acyclic := by
  unfold verify at h
  obtain ⟨releases, hreleases, hrest⟩ := Logged.outcome_bind_eq_ok_iff.mp h
  obtain ⟨groups, _, hrest⟩ := Logged.outcome_bind_eq_ok_iff.mp hrest
  obtain ⟨packages, _, hout⟩ := Logged.outcome_bind_eq_ok_iff.mp hrest
  rw [Logged.outcome_pure, Except.ok.injEq, Bool.and_eq_true, Bool.and_eq_true] at hout
  rw [hout.1.1] at hreleases
  obtain ⟨graph, hgraph, hacyc⟩ := outcome_check.mp hreleases
  cases hgraph
  exact hacyc

/-- A repository in which no cycles are found has none among the packages of a group. -/
theorem exists_acyclic_of_verify (h : (verify tree c).outcome = .ok true) {name : String}
    (hgroup : c.units.get? name = some group) (hkind : group.kind = .group) :
    ∃ graph, c.packageGraph group = .ok graph ∧ graph.Acyclic := by
  unfold verify at h
  obtain ⟨releases, _, hrest⟩ := Logged.outcome_bind_eq_ok_iff.mp h
  obtain ⟨groups, hgroups, hrest⟩ := Logged.outcome_bind_eq_ok_iff.mp hrest
  obtain ⟨packages, _, hout⟩ := Logged.outcome_bind_eq_ok_iff.mp hrest
  rw [Logged.outcome_pure, Except.ok.injEq, Bool.and_eq_true, Bool.and_eq_true,
    List.all_eq_true] at hout
  rw [Logged.outcome_mapM] at hgroups
  have hmem : group ∈ c.units.values.filter (·.kind == .group) := by
    rw [List.mem_filter]
    exact ⟨Table.mem_values_iff.mpr ⟨name, hgroup⟩, by rw [hkind]; rfl⟩
  obtain ⟨sound, hsound⟩ := Failure.exists_of_mapM hgroups hmem
  have htrue : sound = true := hout.1.2 sound ((Failure.mem_mapM_iff hgroups).mpr ⟨group, hmem, hsound⟩)
  rw [htrue] at hsound
  exact outcome_check.mp hsound

end Context

end BuildMeta
