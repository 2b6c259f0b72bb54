import BuildMeta.Digraph.Basic
import BuildMeta.Proofs.Cycle
import BuildMeta.Proofs.Text.Sort

/-!
# `Proofs.Digraph.Reach` — edges, paths and cycles of a digraph

The vocabulary in which the graph algorithms are specified: edges, reachability and cycles, all read
off the child lists alone, and two graphs that differ only in the order in which they are written down.
-/

namespace BuildMeta.Digraph

open Relation

variable {g g' : Digraph} {m n : String} {roots : List String}

/-! ## Edges -/

/-- An edge leads from one node to another. -/
def Edge (g : Digraph) (m n : String) : Prop := n ∈ g.children m

/-- A path, possibly without edges, leads from one node to another. -/
def Reach (g : Digraph) : String → String → Prop := ReflTransGen g.Edge

/-- A node lies on a directed cycle. -/
def OnCycle (g : Digraph) (n : String) : Prop := TransGen g.Edge n n

/-- No node lies on a directed cycle. -/
def Acyclic (g : Digraph) : Prop := ∀ n, ¬ g.OnCycle n

/-- Nodes that can be reached from one of the given ones. -/
def ReachFrom (g : Digraph) (roots : List String) (n : String) : Prop := ∃ r ∈ roots, g.Reach r n

/-- A cycle can be reached from one of the given nodes. -/
def CycleBelow (g : Digraph) (roots : List String) : Prop := ∃ n, g.ReachFrom roots n ∧ g.OnCycle n

theorem hasEdge_iff : g.hasEdge m n = true ↔ g.Edge m n := List.contains_iff_mem

/-- The edges of a graph are read off its entries. -/
theorem edge_iff_entry : g.Edge m n ↔ ∃ cs, (m, cs) ∈ g.entries ∧ n ∈ cs := by
  unfold Edge children Table.getD
  cases h : g.get? m with
  | none =>
    refine ⟨fun hn => absurd hn List.not_mem_nil, ?_⟩
    rintro ⟨cs, hm, _⟩
    rw [Table.get?_eq_some_iff.mpr hm] at h
    cases h
  | some cs =>
    refine ⟨fun hn => ⟨cs, Table.get?_eq_some_iff.mp h, hn⟩, ?_⟩
    rintro ⟨cs', hm, hn⟩
    rw [Table.get?_eq_some_iff.mpr hm, Option.some.injEq] at h
    exact h ▸ hn

/-- The edges of a graph made from a list that never gives a node two child lists. -/
theorem edge_ofList {l : List (String × List String)}
    (hone : ∀ ⦃k cs cs'⦄, (k, cs) ∈ l → (k, cs') ∈ l → cs = cs') :
    Edge (Table.ofList l) m n ↔ ∃ cs, (m, cs) ∈ l ∧ n ∈ cs := by
  rw [edge_iff_entry]
  constructor
  · rintro ⟨cs, hm, hn⟩
    exact ⟨cs, Table.mem_of_get?_ofList (Table.get?_eq_some_iff.mpr hm), hn⟩
  · rintro ⟨cs, hm, hn⟩
    have hkey : m ∈ (Table.ofList l).keys := Table.mem_keys_ofList.mpr (List.mem_map_of_mem hm)
    obtain ⟨cs', hget⟩ := Table.mem_keys_iff.mp hkey
    rw [hone hm (Table.mem_of_get?_ofList hget)] at hn
    exact ⟨cs', Table.get?_eq_some_iff.mp hget, hn⟩

/-- Only keys have children. -/
theorem Edge.mem_keys (h : g.Edge m n) : m ∈ g.keys := by
  obtain ⟨cs, hm, _⟩ := edge_iff_entry.mp h
  exact Table.mem_keys_of_get? (Table.get?_eq_some_iff.mpr hm)

theorem mem_values_flatten : n ∈ g.values.flatten ↔ ∃ m, g.Edge m n := by
  simp only [Table.values, List.mem_flatten, List.mem_map, edge_iff_entry]
  constructor
  · rintro ⟨cs, ⟨⟨m, _⟩, hm, rfl⟩, hn⟩
    exact ⟨m, _, hm, hn⟩
  · rintro ⟨m, cs, hm, hn⟩
    exact ⟨cs, ⟨(m, cs), hm, rfl⟩, hn⟩

/-- The nodes of a graph are its keys and all that is referenced. -/
theorem mem_nodes : n ∈ g.nodes ↔ n ∈ g.keys ∨ ∃ m, g.Edge m n := by
  unfold nodes
  rw [List.mem_eraseDups, List.mem_append, mem_values_flatten]

/-- The nodes outside the graph are the children that are no keys. -/
theorem mem_externalNodes : n ∈ g.externalNodes ↔ n ∉ g.keys ∧ ∃ m, g.Edge m n := by
  unfold externalNodes
  rw [Text.mem_sortedSet, List.mem_filter, mem_values_flatten, and_comm, Bool.not_eq_true',
    ← Bool.not_eq_true, Table.has_iff]

theorem Edge.mem_nodes_left (h : g.Edge m n) : m ∈ g.nodes := mem_nodes.mpr (Or.inl h.mem_keys)

theorem Edge.mem_nodes_right (h : g.Edge m n) : n ∈ g.nodes := mem_nodes.mpr (Or.inr ⟨m, h⟩)

/-- Only nodes are reached from a node. -/
theorem Reach.mem_nodes (h : g.Reach m n) (hm : m ∈ g.nodes) : n ∈ g.nodes := by
  rcases ReflTransGen.cases_tail h with rfl | ⟨k, _, hedge⟩
  · exact hm
  · exact Edge.mem_nodes_right hedge

/-! ## Below given nodes -/

theorem reachFrom_of_mem (hn : n ∈ roots) : g.ReachFrom roots n := ⟨n, hn, ReflTransGen.refl⟩

theorem ReachFrom.of_subset {roots' : List String} (h : g.ReachFrom roots' n)
    (hsub : ∀ m ∈ roots', m ∈ roots) : g.ReachFrom roots n := by
  obtain ⟨r, hr, hreach⟩ := h
  exact ⟨r, hsub r hr, hreach⟩

theorem ReachFrom.tail (h : g.ReachFrom roots m) (hedge : g.Edge m n) : g.ReachFrom roots n := by
  obtain ⟨r, hr, hreach⟩ := h
  exact ⟨r, hr, ReflTransGen.tail hreach hedge⟩

/-- What is below the children of a node can be reached from it by some edges. -/
theorem reachFrom_children_iff : g.ReachFrom (g.children m) n ↔ TransGen g.Edge m n := by
  rw [TransGen.head'_iff]
  rfl

/-- What is below the children of a node is below the node. -/
theorem ReachFrom.of_children (h : g.ReachFrom (g.children m) n) (hm : m ∈ roots) :
    g.ReachFrom roots n := by
  obtain ⟨c, hc, hreach⟩ := h
  exact ⟨m, hm, ReflTransGen.head hc hreach⟩

/-! ## Roots -/

/-- The roots are the keys to which no edge leads. -/
theorem mem_rootNodes : n ∈ g.rootNodes ↔ n ∈ g.keys ∧ ∀ m, ¬ g.Edge m n := by
  unfold rootNodes
  rw [List.mem_filter, List.all_eq_true]
  refine and_congr_right fun _ => ?_
  simp only [Table.values, List.mem_map, edge_iff_entry, Bool.not_eq_true', List.contains_eq_mem,
    decide_eq_false_iff_not]
  constructor
  · rintro h m ⟨cs, hm, hn⟩
    exact h cs ⟨(m, cs), hm, rfl⟩ hn
  · rintro h cs ⟨⟨m, _⟩, hm, rfl⟩ hn
    exact h m ⟨_, hm, hn⟩

/-- **Without cycles every node lies below a root.** -/
theorem reachFrom_rootNodes (hacyc : g.Acyclic) : g.ReachFrom g.rootNodes n ↔ n ∈ g.nodes := by
  constructor
  · rintro ⟨r, hr, hreach⟩
    exact hreach.mem_nodes (mem_nodes.mpr (Or.inl (mem_rootNodes.mp hr).1))
  · intro hn
    obtain ⟨r, hreach, hsource⟩ :=
      exists_source_of_acyclic g.keys (fun _ _ h => Edge.mem_keys h) hacyc n
    have hr : r ∈ g.nodes := by
      rcases ReflTransGen.cases_head hreach with rfl | ⟨c, hedge, _⟩
      · exact hn
      · exact Edge.mem_nodes_left hedge
    have hkey : r ∈ g.keys := (mem_nodes.mp hr).resolve_right fun ⟨c, hc⟩ => hsource c hc
    exact ⟨r, mem_rootNodes.mpr ⟨hkey, hsource⟩, hreach⟩

theorem not_cycleBelow_of_acyclic (hacyc : g.Acyclic) : ¬ g.CycleBelow roots := by
  rintro ⟨n, _, hcyc⟩
  exact hacyc n hcyc

theorem Acyclic.of_edges {g' : Digraph} (hacyc : g'.Acyclic) (h : ∀ m n, g.Edge m n → g'.Edge m n) :
    g.Acyclic :=
  fun n hn => hacyc n (TransGen.mono h _ _ hn)

/-- A graph in which all children are lower than their parents has no cycle. -/
theorem acyclic_of_heights {height : String → Nat}
    (h : ∀ e ∈ g.entries, ∀ n ∈ e.2, height n < height e.1) :
    g.Acyclic := by
  have hedge : ∀ m n, g.Edge m n → height n < height m := by
    intro m n hmn
    obtain ⟨cs, hm, hn⟩ := edge_iff_entry.mp hmn
    exact h (m, cs) hm n hn
  have hpath : ∀ m n, TransGen g.Edge m n → height n < height m := by
    intro m n hmn
    induction hmn with
    | single hlast => exact hedge _ _ hlast
    | tail _ hlast ih => exact Nat.lt_trans (hedge _ _ hlast) ih
  intro n hcycle
  exact Nat.lt_irrefl _ (hpath n n hcycle)

/-! ## The order in which a graph is written down -/

/-- Two graphs have the same keys, each with the same children, in any order. -/
structure SameUpToOrder (g g' : Digraph) : Prop where
  keys : g.keys.Perm g'.keys
  children : ∀ n, (g.children n).Perm (g'.children n)

theorem SameUpToOrder.edge_iff (h : SameUpToOrder g g') : g.Edge m n ↔ g'.Edge m n :=
  (h.children m).mem_iff

theorem SameUpToOrder.rootNodes (h : SameUpToOrder g g') : g.rootNodes.Perm g'.rootNodes := by
  have hnodup : ∀ g : Digraph, g.rootNodes.Nodup := fun g => g.nodup.filter _
  rw [List.perm_ext_iff_of_nodup (hnodup g) (hnodup g')]
  intro n
  simp only [mem_rootNodes, h.keys.mem_iff, h.edge_iff]

end BuildMeta.Digraph
