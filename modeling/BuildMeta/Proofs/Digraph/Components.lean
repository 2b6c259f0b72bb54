import BuildMeta.Proofs.Digraph.Reach
import Mathlib.Data.Set.Subsingleton

/-!
# `Proofs.Digraph.Components` — strongly connected components

Two nodes are in one component if each can be reached from the other.  A component has a cycle in it if
it has two nodes, or an edge from its only node to itself; which of the two it is can be asked at any of
its nodes (`isCyclic_iff`), and that is how the search asks.
-/

namespace BuildMeta.Digraph

open Relation

variable {g g' : Digraph} {m n k : String}

/-- Each of two nodes can be reached from the other. -/
def Mutual (g : Digraph) (m n : String) : Prop := g.Reach m n ∧ g.Reach n m

theorem Mutual.refl (g : Digraph) (n : String) : g.Mutual n n := ⟨.refl, .refl⟩

theorem Mutual.symm (h : g.Mutual m n) : g.Mutual n m := ⟨h.2, h.1⟩

theorem Mutual.trans (h : g.Mutual m n) (h' : g.Mutual n k) : g.Mutual m k :=
  ⟨ReflTransGen.trans h.1 h'.1, ReflTransGen.trans h'.2 h.2⟩

/-- A strongly connected component: all nodes that are mutually reachable with one node. -/
def IsComponent (g : Digraph) (C : Set String) : Prop := ∃ n ∈ g.nodes, C = {m | g.Mutual n m}

/-- A set has at least two nodes, or is one node with an edge to itself. -/
def IsCyclic (g : Digraph) (C : Set String) : Prop := C.Nontrivial ∨ ∃ n, C = {n} ∧ g.Edge n n

/-! ## Cycles through a node -/

theorem onCycle_of_mutual (h : g.Mutual n m) (hne : m ≠ n) : g.OnCycle n := by
  rcases ReflTransGen.cases_head h.1 with heq | ⟨c, hedge, hreach⟩
  · exact absurd heq.symm hne
  · exact TransGen.head' hedge (ReflTransGen.trans hreach h.2)

/-- The next node on a cycle is in the same component. -/
theorem OnCycle.exists_next (h : g.OnCycle n) : ∃ c, g.Edge n c ∧ g.Mutual n c := by
  obtain ⟨c, hedge, hback⟩ := TransGen.head'_iff.mp h
  exact ⟨c, hedge, ReflTransGen.single hedge, hback⟩

theorem OnCycle.of_mutual (h : g.OnCycle n) (hm : g.Mutual n m) : g.OnCycle m := by
  by_cases hne : n = m
  · exact hne ▸ h
  · exact onCycle_of_mutual hm.symm hne

theorem OnCycle.mem_nodes (h : g.OnCycle n) : n ∈ g.nodes := by
  obtain ⟨c, hedge, _⟩ := h.exists_next
  exact hedge.mem_nodes_left

/-- **The component of a node is cyclic if and only if the node lies on a cycle.** -/
theorem isCyclic_iff : g.IsCyclic {m | g.Mutual n m} ↔ g.OnCycle n := by
  constructor
  · rintro (⟨a, ha, b, hb, hne⟩ | ⟨a, hsingle, hedge⟩)
    · by_cases han : a = n
      · exact onCycle_of_mutual hb fun hbn => hne (han.trans hbn.symm)
      · exact onCycle_of_mutual ha han
    · have hn : n ∈ ({a} : Set String) := hsingle ▸ Mutual.refl g n
      obtain rfl : n = a := hn
      exact TransGen.single hedge
  · intro h
    obtain ⟨c, hedge, hc⟩ := h.exists_next
    by_cases hcn : c = n
    · subst hcn
      by_cases hmore : ∃ m, g.Mutual c m ∧ m ≠ c
      · obtain ⟨m, hm, hne⟩ := hmore
        exact Or.inl ⟨m, hm, c, Mutual.refl g c, hne⟩
      · refine Or.inr ⟨c, Set.eq_singleton_iff_unique_mem.mpr ⟨Mutual.refl g c, ?_⟩, hedge⟩
        intro m hm
        exact Classical.byContradiction fun hne => hmore ⟨m, hm, hne⟩
    · exact Or.inl ⟨c, hc, n, Mutual.refl g n, hcn⟩

/-! ## Graphs written down in another order -/

theorem SameUpToOrder.reach_iff (h : SameUpToOrder g g') : g.Reach m n ↔ g'.Reach m n := by
  have hedge : g.Edge = g'.Edge := by
    funext a b
    exact propext h.edge_iff
  unfold Reach
  rw [hedge]

theorem SameUpToOrder.isComponent_iff (h : SameUpToOrder g g') {C : Set String} :
    g.IsComponent C ↔ g'.IsComponent C := by
  simp only [IsComponent, Mutual, mem_nodes, h.reach_iff, h.edge_iff, h.keys.mem_iff]

theorem SameUpToOrder.isCyclic_iff (h : SameUpToOrder g g') {C : Set String} :
    g.IsCyclic C ↔ g'.IsCyclic C := by
  simp only [IsCyclic, h.edge_iff]

end BuildMeta.Digraph
