import BuildMeta.Digraph.Order
import BuildMeta.Proofs.Digraph.Reach

/-!
# `Proofs.Digraph.Walk` — where a depth-first walk stands

Finding levels and finding an order walk the graph in the same way: down along a path whose nodes are
taken out of the free ones.  `Descent` is what both know when they turn to some nodes; it holds at the
start, for fewer nodes, and one step further down, and it says when a node closes a cycle.
-/

namespace BuildMeta.Digraph

open Relation

variable {g : Digraph} {free path nodes : List String} {n : String}

/-- A walk has come down a path and turns to some nodes. -/
structure Descent (g : Digraph) (free path nodes : List String) : Prop where
  /-- Every node of the path leads on to each of the given nodes. -/
  above : ∀ ⦃p n⦄, p ∈ path → n ∈ nodes → TransGen g.Edge p n
  /-- What can be reached from the given nodes is on the path or free. -/
  covered : ∀ ⦃n⦄, g.ReachFrom nodes n → n ∉ path → n ∈ free
  /-- No node of the path is free. -/
  apart : ∀ ⦃p⦄, p ∈ path → p ∉ free
  nodup : free.Nodup

/-- The walk starts at the roots with an empty path. -/
theorem descent_roots (g : Digraph) (roots : List String) :
    Descent g (g.nodesWith roots) [] roots where
  above := fun _ _ hp => absurd hp List.not_mem_nil
  covered := by
    rintro n ⟨r, hr, hreach⟩ _
    unfold nodesWith
    rw [List.mem_eraseDups, List.mem_append]
    rcases ReflTransGen.cases_tail hreach with rfl | ⟨m, _, hedge⟩
    · exact Or.inl hr
    · exact Or.inr (Edge.mem_nodes_right hedge)
  apart := fun _ hp => absurd hp List.not_mem_nil
  nodup := Text.nodup_eraseDups _

theorem Descent.of_subset {nodes' : List String} (h : Descent g free path nodes)
    (hsub : ∀ m ∈ nodes', m ∈ nodes) : Descent g free path nodes' where
  above := fun _ _ hp hm => h.above hp (hsub _ hm)
  covered := fun _ hm => h.covered (hm.of_subset hsub)
  apart := h.apart
  nodup := h.nodup

theorem Descent.tail {rest : List String} (h : Descent g free path (n :: rest)) :
    Descent g free path rest := h.of_subset fun _ => List.mem_cons_of_mem n

/-- One step down: the node joins the path, and its children are next. -/
theorem Descent.down (h : Descent g free path nodes) (hn : n ∈ nodes) :
    Descent g (free.erase n) (path ++ [n]) (g.children n) where
  above := by
    intro p c hp hc
    rcases List.mem_append.mp hp with hp' | hp'
    · exact (h.above hp' hn).tail hc
    · rw [List.mem_singleton] at hp'
      subst hp'
      exact TransGen.single hc
  covered := by
    intro m hbelow hm
    rw [List.mem_append, List.mem_singleton, not_or] at hm
    exact (List.mem_erase_of_ne hm.2).mpr (h.covered (hbelow.of_children hn) hm.1)
  apart := by
    intro p hp hin
    rw [h.nodup.mem_erase_iff] at hin
    rcases List.mem_append.mp hp with hp' | hp'
    · exact h.apart hp' hin.2
    · exact hin.1 (List.mem_singleton.mp hp')
  nodup := h.nodup.erase n

theorem Descent.mem_free_iff (h : Descent g free path nodes) (hn : n ∈ nodes) :
    n ∈ free ↔ n ∉ path :=
  ⟨fun hfree hp => h.apart hp hfree, h.covered (reachFrom_of_mem hn)⟩

/-- A node that is not free is met again on its own path. -/
theorem Descent.onCycle (h : Descent g free path nodes) (hn : n ∈ nodes) (hfree : n ∉ free) :
    g.OnCycle n := by
  have hp : n ∈ path := Classical.byContradiction fun hp => hfree ((h.mem_free_iff hn).mpr hp)
  exact h.above hp hn

/-! ## Cycles below some nodes -/

theorem cycleBelow_of_mem (hn : n ∈ nodes) (h : g.OnCycle n) : g.CycleBelow nodes :=
  ⟨n, reachFrom_of_mem hn, h⟩

theorem CycleBelow.of_subset {nodes' : List String} (h : g.CycleBelow nodes')
    (hsub : ∀ m ∈ nodes', m ∈ nodes) : g.CycleBelow nodes := by
  obtain ⟨m, hbelow, hcyc⟩ := h
  exact ⟨m, hbelow.of_subset hsub, hcyc⟩

/-- A cycle below the children of a node is a cycle below the node. -/
theorem CycleBelow.of_children (h : g.CycleBelow (g.children n)) (hn : n ∈ nodes) :
    g.CycleBelow nodes := by
  obtain ⟨m, hbelow, hcyc⟩ := h
  exact ⟨m, hbelow.of_children hn, hcyc⟩

end BuildMeta.Digraph
