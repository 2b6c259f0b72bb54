import BuildMeta.Proofs.Digraph.Walk

/-!
# `Proofs.Digraph.Levels` — levels are longest paths

A node's level is one more than the length of the longest path that starts at it.  The search finds
levels bottom up and keeps them in a table; `Leveled` is its invariant and `findLevels_settles` the
induction along the walk.

The number of levels is taken from the roots only, while the nodes come from the whole table.  Three
facts on longest paths close that gap: no node below a root has a longer path than the root
(`Longest.le_of_reach`), the nodes along a longest path have every smaller length
(`Longest.exists_below`), and a node has one longest length (`Longest.unique`).
-/

namespace BuildMeta.Digraph

open Relation

variable {g : Digraph} {m n : String} {i j k : Nat}

/-! ## Longest paths -/

/-- A path of the given number of edges starts at a node. -/
inductive PathOf (g : Digraph) : String → Nat → Prop
  | stop (n : String) : PathOf g n 0
  | step {n c : String} {k : Nat} (h : g.Edge n c) (hc : PathOf g c k) : PathOf g n (k + 1)

/-- The longest path that starts at a node has the given number of edges. -/
structure Longest (g : Digraph) (n : String) (k : Nat) : Prop where
  path : g.PathOf n k
  le : ∀ ⦃j⦄, g.PathOf n j → j ≤ k

theorem Longest.unique (h : g.Longest n i) (h' : g.Longest n j) : i = j :=
  Nat.le_antisymm (h'.le h.path) (h.le h'.path)

theorem Longest.lt_of_edge (hm : g.Longest m i) (hn : g.Longest n j) (hedge : g.Edge m n) : j < i :=
  hm.le (.step hedge hn.path)

theorem PathOf.of_reach (h : g.Reach m n) (hn : g.PathOf n j) : ∃ k, j ≤ k ∧ g.PathOf m k := by
  induction h using ReflTransGen.head_induction_on with
  | refl => exact ⟨j, Nat.le_refl j, hn⟩
  | head hedge _ ih =>
    obtain ⟨k, hle, hk⟩ := ih
    exact ⟨k + 1, Nat.le_succ_of_le hle, .step hedge hk⟩

/-- No path below a node is longer than the node's longest one. -/
theorem Longest.le_of_reach (hm : g.Longest m i) (hn : g.Longest n j) (h : g.Reach m n) : j ≤ i := by
  obtain ⟨k, hle, hk⟩ := PathOf.of_reach h hn.path
  exact Nat.le_trans hle (hm.le hk)

/-- The second node of a longest path starts a longest path. -/
theorem Longest.exists_child (h : g.Longest n (k + 1)) : ∃ c, g.Edge n c ∧ g.Longest c k := by
  cases h.path with
  | @step _ c _ hedge hc =>
    refine ⟨c, hedge, hc, fun j hj => ?_⟩
    exact Nat.le_of_succ_le_succ (h.le (.step hedge hj))

/-- **Along a longest path every smaller length occurs.** -/
theorem Longest.exists_below (h : g.Longest n k) (hi : i ≤ k) : ∃ m, g.Reach n m ∧ g.Longest m i := by
  induction k generalizing n with
  | zero =>
    obtain rfl := Nat.le_zero.mp hi
    exact ⟨n, ReflTransGen.refl, h⟩
  | succ k ih =>
    rcases Nat.lt_or_ge k i with hlt | hle
    · obtain rfl : i = k + 1 := Nat.le_antisymm hi hlt
      exact ⟨n, ReflTransGen.refl, h⟩
    · obtain ⟨c, hedge, hc⟩ := h.exists_child
      obtain ⟨m, hreach, hm⟩ := ih hc hle
      exact ⟨m, ReflTransGen.head hedge hreach, hm⟩

/-- A node with a longest path lies on no cycle: going round once more would be longer. -/
theorem Longest.not_onCycle (h : g.Longest n k) : ¬ g.OnCycle n := by
  intro hcyc
  obtain ⟨c, hedge, hback⟩ := TransGen.head'_iff.mp hcyc
  obtain ⟨j, hle, hj⟩ := PathOf.of_reach hback h.path
  have := h.le (.step hedge hj)
  omega

/-! ## The table of levels -/

/-- The invariant of the search: levels are longest paths, and with a node its children are known. -/
structure Leveled (g : Digraph) (found : Table Nat) : Prop where
  longest : ∀ ⦃n level⦄, found.get? n = some level → ∃ k, level = k + 1 ∧ g.Longest n k
  closed : ∀ ⦃n c⦄, n ∈ found.keys → g.Edge n c → c ∈ found.keys

variable {found : Table Nat} {nodes : List String} {greatest : Nat}

theorem Leveled.empty : g.Leveled ∅ where
  longest := fun _ _ h => by rw [Table.get?_empty] at h; cases h
  closed := fun _ _ h => by rw [Table.keys_empty] at h; exact absurd h List.not_mem_nil

theorem Leveled.reach (h : g.Leveled found) (hn : n ∈ found.keys) (hreach : g.Reach n m) :
    m ∈ found.keys := by
  induction hreach with
  | refl => exact hn
  | tail _ hedge ih => exact h.closed ih hedge

/-- The greatest level of some nodes, zero if there are none. -/
structure GreatestLevel (found : Table Nat) (nodes : List String) (greatest : Nat) : Prop where
  le : ∀ ⦃n⦄, n ∈ nodes → ∃ level, found.get? n = some level ∧ level ≤ greatest
  attained : greatest = 0 ∨ ∃ n ∈ nodes, found.get? n = some greatest

/-- One node more: the greatest level is the greater one of its level and those of the others. -/
theorem GreatestLevel.cons {level : Nat} (h : GreatestLevel found nodes greatest)
    (hn : found.get? n = some level) : GreatestLevel found (n :: nodes) (max level greatest) where
  le := by
    intro m hm
    rcases List.mem_cons.mp hm with rfl | hm'
    · exact ⟨level, hn, Nat.le_max_left ..⟩
    · obtain ⟨l, hl, hle⟩ := h.le hm'
      exact ⟨l, hl, Nat.le_trans hle (Nat.le_max_right ..)⟩
  attained := by
    rcases Nat.le_total greatest level with hle | hle
    · rw [Nat.max_eq_left hle]
      exact Or.inr ⟨n, List.mem_cons_self, hn⟩
    · rw [Nat.max_eq_right hle]
      rcases h.attained with h0 | ⟨m, hm, hget⟩
      · exact Or.inl h0
      · exact Or.inr ⟨m, List.mem_cons_of_mem _ hm, hget⟩

/-- The longest path of a node has as many edges as the greatest level among its children says. -/
theorem GreatestLevel.longest (h : GreatestLevel found (g.children n) greatest)
    (hl : g.Leveled found) : g.Longest n greatest where
  path := by
    rcases h.attained with rfl | ⟨c, hc, hget⟩
    · exact .stop n
    · obtain ⟨k, rfl, hlong⟩ := hl.longest hget
      exact .step hc hlong.path
  le := by
    intro j hj
    cases hj with
    | stop => exact Nat.zero_le greatest
    | step hedge hc =>
      obtain ⟨level, hget, hle⟩ := h.le hedge
      obtain ⟨k, rfl, hlong⟩ := hl.longest hget
      exact Nat.le_trans (Nat.succ_le_succ (hlong.le hc)) hle

/-- A node whose children are known gets its level. -/
theorem Leveled.set (hl : g.Leveled found) (h : GreatestLevel found (g.children n) greatest) :
    g.Leveled (found.set n (greatest + 1)) where
  longest := by
    intro m level hget
    by_cases hm : m = n
    · subst hm
      rw [Table.get?_set_self, Option.some.injEq] at hget
      exact ⟨greatest, hget.symm, h.longest hl⟩
    · rw [Table.get?_set_of_ne _ _ hm] at hget
      exact hl.longest hget
  closed := by
    intro m c hm hedge
    refine Table.mem_keys_set.mpr (Or.inr ?_)
    rcases Table.mem_keys_set.mp hm with rfl | hm'
    · obtain ⟨level, hget, _⟩ := h.le hedge
      exact Table.mem_keys_of_get? hget
    · exact hl.closed hm' hedge

theorem Leveled.extends_set (hl : g.Leveled found)
    (h : GreatestLevel found (g.children n) greatest) : found.Extends (found.set n (greatest + 1)) := by
  refine Table.extends_set fun old hget => ?_
  obtain ⟨k, rfl, hlong⟩ := hl.longest hget
  rw [hlong.unique (h.longest hl)]

/-! ## The walk -/

section Walk

variable {free path rest : List String} {level : Nat}

theorem findLevels_of_not_free (h : n ∉ free) :
    g.findLevels free path (n :: rest) found = .error (.cycle (path ++ [n])) := by
  rw [findLevels, dif_neg h]

theorem findLevels_of_found (hfree : n ∈ free) (h : found.get? n = some level) :
    g.findLevels free path (n :: rest) found
      = g.findLevels free path rest found >>= fun r => .ok (max level r.1, r.2) := by
  rw [findLevels, dif_pos hfree]
  simp only [h]
  rfl

theorem findLevels_of_new (hfree : n ∈ free) (h : found.get? n = none) :
    g.findLevels free path (n :: rest) found
      = g.findLevels (free.erase n) (path ++ [n]) (g.children n) found >>= fun r =>
          g.findLevels free path rest (r.2.set n (r.1 + 1)) >>= fun r' =>
            .ok (max (r.1 + 1) r'.1, r'.2) := by
  rw [findLevels, dif_pos hfree]
  simp only [h]
  rfl

/-- The search has found the levels of the given nodes, and of no others than those below them. -/
structure Found (g : Digraph) (nodes : List String) (before after : Table Nat) (greatest : Nat) :
    Prop where
  leveled : g.Leveled after
  greatest : GreatestLevel after nodes greatest
  keeps : before.Extends after
  below : ∀ ⦃n⦄, n ∈ after.keys → n ∈ before.keys ∨ g.ReachFrom nodes n

/-- **The walk** finds the levels of the given nodes, or it fails because there is a cycle below them. -/
theorem findLevels_settles (hd : Descent g free path nodes) (hl : g.Leveled found) :
    (∃ greatest after, g.findLevels free path nodes found = .ok (greatest, after) ∧
      Found g nodes found after greatest) ∨
    (∃ p, g.findLevels free path nodes found = .error (.cycle p)) ∧ g.CycleBelow nodes := by
  induction free, path, nodes, found using findLevels.induct g with
  | case1 free path found =>
    refine Or.inl ⟨0, found, ?_, hl, ⟨?_, Or.inl rfl⟩, Table.Extends.refl found, fun _ hn => Or.inl hn⟩
    · rw [findLevels]
    · intro n hn
      exact absurd hn List.not_mem_nil
  | case2 free path n rest found hfree level hget ih =>
    rw [findLevels_of_found hfree hget]
    rcases ih hd.tail hl with ⟨greatest, after, hout, hf⟩ | ⟨⟨p, hfail⟩, hcyc⟩
    · refine Or.inl ⟨max level greatest, after, ?_, hf.leveled, ?_, hf.keeps, ?_⟩
      · rw [hout, Failure.ok_bind]
      · exact hf.greatest.cons (hf.keeps hget)
      · intro m hm
        exact (hf.below hm).imp_right fun h => h.of_subset fun _ => List.mem_cons_of_mem n
    · refine Or.inr ⟨⟨p, ?_⟩, hcyc.of_subset fun _ => List.mem_cons_of_mem n⟩
      rw [hfail, Failure.error_bind]
  | case3 free path n rest found hfree hnew ihdown ihrest =>
    rw [findLevels_of_new hfree hnew]
    rcases ihdown (hd.down List.mem_cons_self) hl with ⟨below, known, hout, hf⟩ | ⟨⟨p, hfail⟩, hcyc⟩
    · rw [hout, Failure.ok_bind]
      -- The greatest level of the children is the length of the longest path from `n`.
      have hl₁ : g.Leveled (known.set n (below + 1)) := hf.leveled.set hf.greatest
      rcases ihrest below known hd.tail hl₁ with ⟨greatest, after, hout', hf'⟩ | ⟨⟨p, hfail⟩, hcyc⟩
      · refine Or.inl ⟨max (below + 1) greatest, after, ?_, hf'.leveled, ?_, ?_, ?_⟩
        · rw [hout', Failure.ok_bind]
        · exact hf'.greatest.cons (hf'.keeps (Table.get?_set_self ..))
        · exact (hf.keeps.trans (hf.leveled.extends_set hf.greatest)).trans hf'.keeps
        · intro m hm
          rcases hf'.below hm with hm' | hrest
          · rcases Table.mem_keys_set.mp hm' with rfl | hm''
            · exact Or.inr (reachFrom_of_mem List.mem_cons_self)
            · exact (hf.below hm'').imp_right fun h => h.of_children List.mem_cons_self
          · exact Or.inr (hrest.of_subset fun _ => List.mem_cons_of_mem n)
      · refine Or.inr ⟨⟨p, ?_⟩, hcyc.of_subset fun _ => List.mem_cons_of_mem n⟩
        rw [hfail, Failure.error_bind]
    · refine Or.inr ⟨⟨p, ?_⟩, hcyc.of_children List.mem_cons_self⟩
      rw [hfail, Failure.error_bind]
  | case4 free path n rest found hfree =>
    refine Or.inr ⟨⟨path ++ [n], findLevels_of_not_free hfree⟩, ?_⟩
    exact cycleBelow_of_mem List.mem_cons_self (hd.onCycle List.mem_cons_self hfree)

end Walk

/-! ## From the table to the levels -/

/-- A node is in the level of the given index. -/
def InLevel (levels : List (List String)) (n : String) (i : Nat) : Prop :=
  ∃ level, levels[i]? = some level ∧ n ∈ level

/-- A level holds the nodes for which it was found. -/
theorem mem_nodesAtLevel {level : Nat} :
    n ∈ nodesAtLevel found level ↔ found.get? n = some level := by
  unfold nodesAtLevel
  rw [Text.mem_sort, List.mem_map, Table.get?_eq_some_iff]
  constructor
  · rintro ⟨⟨m, l⟩, hm, rfl⟩
    rw [List.mem_filter, beq_iff_eq] at hm
    exact hm.2 ▸ hm.1
  · intro h
    exact ⟨(n, level), List.mem_filter.mpr ⟨h, beq_self_eq_true level⟩, rfl⟩

theorem nodup_nodesAtLevel (found : Table Nat) (level : Nat) : (nodesAtLevel found level).Nodup := by
  unfold nodesAtLevel
  rw [Text.nodup_sort]
  exact found.nodup.sublist (List.filter_sublist.map _)

/-- The levels that are made of a table: as many as the greatest level among the roots says. -/
def levelsOf (found : Table Nat) (greatest : Nat) : List (List String) :=
  (List.range greatest).map fun l => nodesAtLevel found (l + 1)

/-- No node has two levels. -/
theorem disjoint_levelsOf (found : Table Nat) (greatest : Nat) :
    (levelsOf found greatest).Pairwise List.Disjoint := by
  unfold levelsOf
  rw [List.pairwise_map]
  refine List.nodup_range.imp fun {a b} hab n ha hb => hab ?_
  have hget := (mem_nodesAtLevel.mp ha).symm.trans (mem_nodesAtLevel.mp hb)
  simpa using hget

/-- A node stands in the levels if it stands in one of them. -/
theorem mem_flatten_iff_inLevel {levels : List (List String)} :
    n ∈ levels.flatten ↔ ∃ i, InLevel levels n i := by
  rw [List.mem_flatten]
  constructor
  · rintro ⟨level, hlevel, hn⟩
    obtain ⟨i, hi⟩ := List.mem_iff_getElem?.mp hlevel
    exact ⟨i, level, hi, hn⟩
  · rintro ⟨i, level, hi, hn⟩
    exact ⟨level, List.mem_of_getElem? hi, hn⟩

/-- The levels are numbered from zero, while a node without children is found at one. -/
theorem inLevel_iff :
    InLevel (levelsOf found greatest) n i ↔ i < greatest ∧ found.get? n = some (i + 1) := by
  unfold InLevel levelsOf
  rw [List.getElem?_map]
  constructor
  · rintro ⟨level, hlevel, hn⟩
    obtain ⟨l, hl, rfl⟩ := Option.map_eq_some_iff.mp hlevel
    obtain ⟨hi, rfl⟩ := List.getElem?_eq_some_iff.mp hl
    rw [List.getElem_range] at hn
    exact ⟨by simpa using hi, mem_nodesAtLevel.mp hn⟩
  · rintro ⟨hi, hget⟩
    exact ⟨_, by rw [List.getElem?_range hi, Option.map_some], mem_nodesAtLevel.mpr hget⟩

/-! ## The levels below given roots -/

section Roots

variable {roots : List String}

/-- The search finds the nodes below the roots, and no others. -/
theorem Found.mem_keys_iff (hf : Found g roots ∅ found greatest) :
    n ∈ found.keys ↔ g.ReachFrom roots n := by
  constructor
  · intro hn
    refine (hf.below hn).resolve_left ?_
    rw [Table.keys_empty]
    exact List.not_mem_nil
  · rintro ⟨r, hr, hreach⟩
    obtain ⟨level, hget, _⟩ := hf.greatest.le hr
    exact hf.leveled.reach (Table.mem_keys_of_get? hget) hreach

/-- A node below the roots has a level, and its level is its longest path's. -/
theorem Found.get?_eq_some_iff (hf : Found g roots ∅ found greatest) (hn : g.ReachFrom roots n) :
    found.get? n = some (k + 1) ↔ g.Longest n k := by
  obtain ⟨level, hget⟩ := Table.mem_keys_iff.mp (hf.mem_keys_iff.mpr hn)
  obtain ⟨j, rfl, hlong⟩ := hf.leveled.longest hget
  rw [hget, Option.some.injEq, Nat.add_right_cancel_iff]
  exact ⟨fun h => h ▸ hlong, fun h => hlong.unique h⟩

/-- **No level found lies outside the range that the roots give.** -/
theorem Found.level_le (hf : Found g roots ∅ found greatest) {level : Nat}
    (hget : found.get? n = some level) : 1 ≤ level ∧ level ≤ greatest := by
  obtain ⟨j, rfl, hlong⟩ := hf.leveled.longest hget
  obtain ⟨r, hr, hreach⟩ := hf.mem_keys_iff.mp (Table.mem_keys_of_get? hget)
  obtain ⟨top, hrget, hle⟩ := hf.greatest.le hr
  obtain ⟨i, rfl, hrlong⟩ := hf.leveled.longest hrget
  have := hrlong.le_of_reach hlong hreach
  omega

/-- **No level in the range stays empty**: one root has the greatest level, and along its longest path
    every smaller one occurs. -/
theorem Found.exists_at (hf : Found g roots ∅ found greatest) (hi : i < greatest) :
    ∃ n, found.get? n = some (i + 1) := by
  rcases hf.greatest.attained with h0 | ⟨r, hr, hget⟩
  · omega
  · obtain ⟨k, rfl, hlong⟩ := hf.leveled.longest hget
    obtain ⟨m, hreach, hm⟩ := hlong.exists_below (Nat.le_of_lt_succ hi)
    exact ⟨m, (hf.get?_eq_some_iff ⟨r, hr, hreach⟩).mpr hm⟩

/-- **A node stands in the level of its longest path.** -/
theorem Found.inLevel_iff (hf : Found g roots ∅ found greatest) :
    InLevel (levelsOf found greatest) n i ↔ g.ReachFrom roots n ∧ g.Longest n i := by
  rw [Digraph.inLevel_iff]
  constructor
  · rintro ⟨_, hget⟩
    have hn := hf.mem_keys_iff.mp (Table.mem_keys_of_get? hget)
    exact ⟨hn, (hf.get?_eq_some_iff hn).mp hget⟩
  · rintro ⟨hn, hlong⟩
    have hget := (hf.get?_eq_some_iff hn).mpr hlong
    exact ⟨(hf.level_le hget).2, hget⟩

theorem Found.exists_longest (hf : Found g roots ∅ found greatest) (hn : g.ReachFrom roots n) :
    ∃ k, g.Longest n k := by
  obtain ⟨level, hget⟩ := Table.mem_keys_iff.mp (hf.mem_keys_iff.mpr hn)
  obtain ⟨k, _, hlong⟩ := hf.leveled.longest hget
  exact ⟨k, hlong⟩

/-- All nodes below the roots stand in some level. -/
theorem Found.mem_flatten_iff (hf : Found g roots ∅ found greatest) :
    n ∈ (levelsOf found greatest).flatten ↔ g.ReachFrom roots n := by
  rw [mem_flatten_iff_inLevel]
  constructor
  · rintro ⟨i, hi⟩
    exact (hf.inLevel_iff.mp hi).1
  · intro hn
    obtain ⟨k, hlong⟩ := hf.exists_longest hn
    exact ⟨k, hf.inLevel_iff.mpr ⟨hn, hlong⟩⟩

theorem Found.level_ne_nil (hf : Found g roots ∅ found greatest) {level : List String}
    (hlevel : level ∈ levelsOf found greatest) : level ≠ [] ∧ level.Nodup := by
  obtain ⟨l, hl, rfl⟩ := List.mem_map.mp hlevel
  obtain ⟨n, hget⟩ := hf.exists_at (List.mem_range.mp hl)
  exact ⟨List.ne_nil_of_mem (mem_nodesAtLevel.mpr hget), nodup_nodesAtLevel found (l + 1)⟩

/-- Edges go to strictly lower levels. -/
theorem Found.exists_lower (hf : Found g roots ∅ found greatest) (hedge : g.Edge m n)
    (hm : InLevel (levelsOf found greatest) m i) :
    ∃ j < i, InLevel (levelsOf found greatest) n j := by
  obtain ⟨hbelow, hlong⟩ := hf.inLevel_iff.mp hm
  have hn : g.ReachFrom roots n := hbelow.tail hedge
  obtain ⟨j, hj⟩ := hf.exists_longest hn
  exact ⟨j, hlong.lt_of_edge hj hedge, hf.inLevel_iff.mpr ⟨hn, hj⟩⟩

theorem Found.not_cycleBelow (hf : Found g roots ∅ found greatest) : ¬ g.CycleBelow roots := by
  rintro ⟨n, hn, hcyc⟩
  obtain ⟨k, hlong⟩ := hf.exists_longest hn
  exact hlong.not_onCycle hcyc

/-- A search for levels ends in one of two ways: with the lengths of all nodes below the roots, or
    with a cycle below them. -/
theorem levelsFrom_settles (g : Digraph) (roots : List String) :
    (∃ greatest found, g.findLevels (g.nodesWith roots) [] roots ∅ = .ok (greatest, found) ∧
      Found g roots ∅ found greatest ∧
      g.levelsFrom roots = .ok (levelsOf found greatest)) ∨
    (∃ p, g.findLevels (g.nodesWith roots) [] roots ∅ = .error (.cycle p) ∧
      g.levelsFrom roots = .error (.cycle p)) ∧ g.CycleBelow roots := by
  unfold levelsFrom
  rcases findLevels_settles (descent_roots g roots) Leveled.empty with
    ⟨greatest, found, hout, hf⟩ | ⟨⟨p, hfail⟩, hcyc⟩
  · refine Or.inl ⟨greatest, found, hout, hf, ?_⟩
    rw [hout]
    rfl
  · refine Or.inr ⟨⟨p, hfail, ?_⟩, hcyc⟩
    rw [hfail]
    rfl

end Roots

/-! ## Graphs without cycles -/

/-- Without cycles the search from the roots succeeds. -/
theorem Acyclic.exists_found (hacyc : g.Acyclic) :
    ∃ greatest found, Found g g.rootNodes ∅ found greatest ∧
      g.levels = .ok (levelsOf found greatest) := by
  rcases levelsFrom_settles g g.rootNodes with ⟨greatest, found, _, hf, hout⟩ | ⟨_, hcyc⟩
  · exact ⟨greatest, found, hf, hout⟩
  · exact absurd hcyc (not_cycleBelow_of_acyclic hacyc)

/-- Without cycles every node has a longest path. -/
theorem Acyclic.exists_longest (hacyc : g.Acyclic) (hn : n ∈ g.nodes) : ∃ k, g.Longest n k := by
  obtain ⟨_, _, hf, _⟩ := hacyc.exists_found
  exact hf.exists_longest ((reachFrom_rootNodes hacyc).mpr hn)

/-- Without cycles the levels take in all nodes. -/
theorem Acyclic.exists_levels (hacyc : g.Acyclic) :
    ∃ levels, g.levels = .ok levels ∧ (∀ level ∈ levels, level.Nodup) ∧
      ∀ n i, InLevel levels n i ↔ n ∈ g.nodes ∧ g.Longest n i := by
  obtain ⟨greatest, found, hf, hout⟩ := hacyc.exists_found
  refine ⟨levelsOf found greatest, hout, fun _ hlevel => (hf.level_ne_nil hlevel).2, fun n i => ?_⟩
  rw [hf.inLevel_iff, reachFrom_rootNodes hacyc]

/-- **Levels are longest paths.**  The search fails with a cycle exactly if one can be reached from a
    root.  Otherwise the levels are disjoint sets, none empty, of the nodes below the roots; a node is in
    the level whose index is the length of its longest path, so edges go to lower levels; and every
    level found lies in the range of the levels made. -/
theorem levelsFrom_longest (g : Digraph) (roots : List String) :
    ((∃ p, g.levelsFrom roots = .error (.cycle p)) ↔ g.CycleBelow roots) ∧
    (¬ g.CycleBelow roots → ∃ levels, g.levelsFrom roots = .ok levels ∧
      (∀ level ∈ levels, level ≠ [] ∧ level.Nodup) ∧ levels.Pairwise List.Disjoint ∧
      (∀ n, n ∈ levels.flatten ↔ g.ReachFrom roots n) ∧
      (∀ n i, InLevel levels n i ↔ g.ReachFrom roots n ∧ g.Longest n i) ∧
      ∀ m n i, g.Edge m n → InLevel levels m i → ∃ j < i, InLevel levels n j) ∧
    ∀ greatest found, g.findLevels (g.nodesWith roots) [] roots ∅ = .ok (greatest, found) →
      ∀ n level, found.get? n = some level → 1 ≤ level ∧ level - 1 < greatest := by
  refine ⟨⟨?_, ?_⟩, ?_, ?_⟩
  · rintro ⟨p, hfail⟩
    rcases levelsFrom_settles g roots with ⟨_, _, _, _, hout⟩ | ⟨_, hcyc⟩
    · rw [hfail] at hout
      cases hout
    · exact hcyc
  · intro hcyc
    rcases levelsFrom_settles g roots with ⟨_, _, _, hf, _⟩ | ⟨⟨p, _, hfail⟩, _⟩
    · exact absurd hcyc hf.not_cycleBelow
    · exact ⟨p, hfail⟩
  · intro hno
    rcases levelsFrom_settles g roots with ⟨greatest, found, _, hf, hout⟩ | ⟨_, hcyc⟩
    · exact ⟨_, hout, fun _ hlevel => hf.level_ne_nil hlevel, disjoint_levelsOf found greatest,
        fun _ => hf.mem_flatten_iff, fun _ _ => hf.inLevel_iff,
        fun _ _ _ hedge hm => hf.exists_lower hedge hm⟩
    · exact absurd hcyc hno
  · intro greatest found hout n level hget
    rcases levelsFrom_settles g roots with ⟨_, _, hout', hf, _⟩ | ⟨⟨p, hfail, _⟩, _⟩
    · rw [hout] at hout'
      cases hout'
      have := hf.level_le hget
      omega
    · rw [hout] at hfail
      cases hfail

end BuildMeta.Digraph
