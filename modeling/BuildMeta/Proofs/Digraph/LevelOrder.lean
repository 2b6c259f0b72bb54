import BuildMeta.Proofs.Digraph.Levels

/-!
# `Proofs.Digraph.LevelOrder` — nodes by level, and by name within a level

The levels of a graph, read one after the other, list the nodes in an order that depends on the graph
alone and not on the roots: a node's level is the length of its longest path.  Hence a set of nodes has
only one list in this order (`eq_of_levelOrder`), and a node comes after all nodes below it
(`LevelBefore.not_below`).  `LevelsBelow` is the list of the nodes below a node; that of a lower
node is a part of it (`LevelsBelow.filter`).
-/

namespace BuildMeta.Digraph

open Relation

variable {g : Digraph} {m n k : String} {roots : List String}

/-- A node comes before another: its longest path is shorter, or just as long and its name smaller. -/
def LevelBefore (g : Digraph) (m n : String) : Prop :=
  ∃ i j, g.Longest m i ∧ g.Longest n j ∧ (i < j ∨ i = j ∧ m < n)

/-- The level order is strict: a node with the shorter longest path comes first, or the smaller
    name. -/
theorem LevelBefore.asymm (h : g.LevelBefore m n) : ¬ g.LevelBefore n m := by
  rintro ⟨j', i', hn', hm', hlt'⟩
  obtain ⟨i, j, hm, hn, hlt⟩ := h
  obtain rfl := hm.unique hm'
  obtain rfl := hn.unique hn'
  rcases hlt with hlt | ⟨rfl, hname⟩
  · rcases hlt' with hlt' | ⟨rfl, _⟩
    · exact absurd hlt (Nat.lt_asymm hlt')
    · exact absurd hlt (Nat.lt_irrefl _)
  · rcases hlt' with hlt' | ⟨_, hname'⟩
    · exact absurd hlt' (Nat.lt_irrefl _)
    · exact lt_asymm hname hname'

theorem LevelBefore.ne (h : g.LevelBefore m n) : m ≠ n := by
  rintro rfl
  exact h.asymm h

/-- The longest path gets shorter along a path. -/
theorem Longest.lt_of_path {i j : Nat} (hm : g.Longest m i) (hn : g.Longest n j)
    (h : TransGen g.Edge m n) : j < i := by
  obtain ⟨c, hedge, hreach⟩ := TransGen.head'_iff.mp h
  obtain ⟨l, hle, hl⟩ := PathOf.of_reach hreach hn.path
  exact Nat.lt_of_le_of_lt hle (hm.le (.step hedge hl))

/-- No node comes before one that lies below it. -/
theorem LevelBefore.not_below (h : g.LevelBefore m n) : ¬ TransGen g.Edge m n := by
  intro hpath
  obtain ⟨i, j, hm, hn, hlt⟩ := h
  have := hm.lt_of_path hn hpath
  omega

theorem levelBefore_of_path {i j : Nat} (hm : g.Longest m i) (hn : g.Longest n j)
    (h : TransGen g.Edge m n) : g.LevelBefore n m :=
  ⟨j, i, hn, hm, Or.inl (hm.lt_of_path hn h)⟩

theorem nodup_of_levelOrder {l : List String} (h : l.Pairwise g.LevelBefore) : l.Nodup :=
  h.imp fun hab => hab.ne

/-- **A set of nodes has only one list in level order.** -/
theorem eq_of_levelOrder {l l' : List String} (h : l.Pairwise g.LevelBefore)
    (h' : l'.Pairwise g.LevelBefore) (hmem : ∀ n, n ∈ l ↔ n ∈ l') : l = l' := by
  have hperm : l.Perm l' :=
    (List.perm_ext_iff_of_nodup (nodup_of_levelOrder h) (nodup_of_levelOrder h')).mpr hmem
  exact hperm.eq_of_pairwise (fun _ _ _ _ hab hba => absurd hba hab.asymm) h h'

/-- The nodes are listed by the lengths found for them, which are those of longest paths, and by
    name within one length. -/
theorem Found.levelOrder {found : Table Nat} {greatest : Nat} (hf : Found g roots ∅ found greatest) :
    (levelsOf found greatest).flatten.Pairwise g.LevelBefore := by
  have hlong : ∀ ⦃l n⦄, n ∈ nodesAtLevel found (l + 1) → g.Longest n l := by
    intro l n hn
    obtain ⟨k, hk, hlong⟩ := hf.leveled.longest (mem_nodesAtLevel.mp hn)
    obtain rfl : l = k := Nat.succ.inj hk
    exact hlong
  rw [List.pairwise_flatten]
  constructor
  · intro level hlevel
    obtain ⟨l, _, rfl⟩ := List.mem_map.mp hlevel
    have hsorted : (nodesAtLevel found (l + 1)).Pairwise (· ≤ ·) := Text.pairwise_sort _
    have hboth := hsorted.and (nodup_nodesAtLevel found (l + 1))
    refine hboth.imp_of_mem ?_
    intro a b ha hb hab
    exact ⟨l, l, hlong ha, hlong hb, Or.inr ⟨rfl, lt_of_le_of_ne hab.1 hab.2⟩⟩
  · unfold levelsOf
    rw [List.pairwise_map]
    refine List.pairwise_lt_range.imp ?_
    intro i j hij a ha b hb
    exact ⟨i, j, hlong ha, hlong hb, Or.inl hij⟩

/-- The levels list the nodes below the roots in level order, unless there is a cycle below them. -/
theorem levelsFrom_levelOrder (g : Digraph) (roots : List String) :
    (∃ levels, g.levelsFrom roots = .ok levels ∧ levels.flatten.Pairwise g.LevelBefore ∧
      (∀ n, n ∈ levels.flatten ↔ g.ReachFrom roots n) ∧
      ∀ n ∈ levels.flatten, ∃ k, g.Longest n k) ∨
    (∃ p, g.levelsFrom roots = .error (.cycle p)) ∧ g.CycleBelow roots := by
  rcases levelsFrom_settles g roots with ⟨greatest, found, _, hf, hout⟩ | ⟨⟨p, _, hfail⟩, hcyc⟩
  · refine Or.inl ⟨_, hout, hf.levelOrder, fun _ => hf.mem_flatten_iff, ?_⟩
    intro n hn
    exact hf.exists_longest (hf.mem_flatten_iff.mp hn)
  · exact Or.inr ⟨⟨p, hfail⟩, hcyc⟩

/-! ## What is below a node -/

/-- The nodes below a node, in level order. -/
structure LevelsBelow (g : Digraph) (n : String) (below : List String) : Prop where
  levelOrder : below.Pairwise g.LevelBefore
  mem_iff : ∀ m, m ∈ below ↔ TransGen g.Edge n m
  longest : ∀ m ∈ below, ∃ k, g.Longest m k

/-- The levels below the children of a node list what is below it, unless there is a cycle. -/
theorem levelsFrom_children (g : Digraph) (n : String) :
    (∃ levels, g.levelsFrom (g.children n) = .ok levels ∧ g.LevelsBelow n levels.flatten) ∨
    (∃ p, g.levelsFrom (g.children n) = .error (.cycle p)) ∧
      ∃ m, TransGen g.Edge n m ∧ g.OnCycle m := by
  rcases levelsFrom_levelOrder g (g.children n) with
    ⟨levels, hout, horder, hmem, hlongest⟩ | ⟨hfail, m, hreach, hcyc⟩
  · exact Or.inl ⟨levels, hout, horder, fun m => (hmem m).trans reachFrom_children_iff, hlongest⟩
  · exact Or.inr ⟨hfail, m, reachFrom_children_iff.mp hreach, hcyc⟩

theorem levelsBelow_of_levelsFrom {levels : List (List String)}
    (h : g.levelsFrom (g.children n) = .ok levels) : g.LevelsBelow n levels.flatten := by
  rcases levelsFrom_children g n with ⟨levels', hout, hbelow⟩ | ⟨⟨p, hfail⟩, _⟩
  · rw [h] at hout
    cases hout
    exact hbelow
  · rw [h] at hfail
    cases hfail

theorem LevelsBelow.mem_nodes {below : List String} (h : g.LevelsBelow n below) (hm : m ∈ below) :
    m ∈ g.nodes := by
  obtain ⟨_, _, hedge⟩ := TransGen.tail'_iff.mp ((h.mem_iff m).mp hm)
  exact hedge.mem_nodes_right

/-- **What is below a lower node, followed by this node, stands below the node in the same order**:
    level order does not depend on where the search started. -/
theorem LevelsBelow.filter {below lower : List String} (h : g.LevelsBelow n below)
    (hlower : g.LevelsBelow m lower) (hm : TransGen g.Edge n m) :
    below.filter (· ∈ lower ++ [m]) = lower ++ [m] := by
  have hsub : ∀ k ∈ lower ++ [m], k ∈ below := by
    intro k hk
    rcases List.mem_append.mp hk with hk | hk
    · exact (h.mem_iff k).mpr (hm.trans ((hlower.mem_iff k).mp hk))
    · rw [List.mem_singleton.mp hk]
      exact (h.mem_iff m).mpr hm
  refine eq_of_levelOrder (h.levelOrder.filter _) ?_ fun k => ?_
  · rw [List.pairwise_append]
    refine ⟨hlower.levelOrder, List.pairwise_singleton _ _, fun a ha b hb => ?_⟩
    rw [List.mem_singleton.mp hb]
    obtain ⟨i, hi⟩ := h.longest m ((h.mem_iff m).mpr hm)
    obtain ⟨j, hj⟩ := h.longest a (hsub a (List.mem_append_left _ ha))
    exact levelBefore_of_path hi hj ((hlower.mem_iff a).mp ha)
  · rw [List.mem_filter, decide_eq_true_eq]
    exact ⟨fun hk => hk.2, fun hk => ⟨hsub k hk, hk⟩⟩

end BuildMeta.Digraph
