import BuildMeta.Digraph.Cycles
import BuildMeta.Proofs.Digraph.Components

/-!
# `Proofs.Digraph.CycleSearch` — what the search for cycles maintains

The search numbers nodes as it meets them.  A numbered node is *open* while it is on the stack and
*closed* after that.  `Inv` ties both to the graph, for the list `path` of the nodes that are being
visited:

- open nodes are numbered upward along the stack, each reaches all above it, and each reaches a node of
  `path` that is not above it;
- edges from closed nodes lead to closed nodes;
- the cycles found are the components of the closed nodes that lie on cycles.

A node is entered (`Inv.enter`) and later either left open, because it reaches an open node below it
(`Inv.leave`), or closed with all that is above it on the stack (`Rooted.inv_close`).  In the second case
no edge leads from these nodes to an open node below, and so they are exactly one component
(`Rooted.mem_iff`).
-/

namespace BuildMeta.Digraph.CycleSearch

open Relation

variable {g : Digraph} {path above old : List String} {s s' : CycleSearch} {n x y : String}

/-! ## Numbers -/

/-- The number of a node, or zero. -/
def num (s : CycleSearch) (n : String) : Nat := s.numbers.getD n 0

theorem num_of_get? {k : Nat} (h : s.numbers.get? n = some k) : s.num n = k := by
  unfold num Table.getD
  rw [h, Option.getD_some]

theorem num_of_extends (h : s.numbers.Extends s'.numbers) (hn : n ∈ s.numbers.keys) :
    s'.num n = s.num n := by
  obtain ⟨k, hk⟩ := Table.mem_keys_iff.mp hn
  rw [num_of_get? hk, num_of_get? (h hk)]

theorem extends_enter (hn : n ∉ s.numbers.keys) : s.numbers.Extends (s.enter n).numbers :=
  Table.extends_set fun _ hold => absurd (Table.mem_keys_of_get? hold) hn

theorem num_enter_self : (s.enter n).num n = s.numbers.size := num_of_get? (Table.get?_set_self ..)

theorem mem_keys_enter : x ∈ (s.enter n).numbers.keys ↔ x = n ∨ x ∈ s.numbers.keys :=
  Table.mem_keys_set

theorem size_enter (hn : n ∉ s.numbers.keys) :
    (s.enter n).numbers.size = s.numbers.size + 1 := Table.size_set_of_not_mem _ hn

/-- A node whose component is complete. -/
def Closed (s : CycleSearch) (n : String) : Prop := n ∈ s.numbers.keys ∧ n ∉ s.stack

theorem closed_enter (hn : n ∉ s.numbers.keys) : (s.enter n).Closed x ↔ s.Closed x := by
  unfold Closed
  rw [mem_keys_enter, show (s.enter n).stack = n :: s.stack from rfl, List.mem_cons, not_or]
  constructor
  · rintro ⟨hx, hne, hstack⟩
    exact ⟨hx.resolve_left hne, hstack⟩
  · rintro ⟨hx, hstack⟩
    exact ⟨Or.inr hx, fun h => hn (h ▸ hx), hstack⟩

/-! ## The invariant -/

/-- The cycles found are the components of the closed nodes that lie on cycles, each once. -/
structure Reported (g : Digraph) (s : CycleSearch) : Prop where
  component : ∀ c ∈ s.cycles, ∃ n, g.OnCycle n ∧ ∀ m, m ∈ c ↔ g.Mutual n m
  closed : ∀ c ∈ s.cycles, ∀ m ∈ c, s.Closed m
  complete : ∀ n, s.Closed n → g.OnCycle n → ∃ c ∈ s.cycles, n ∈ c
  nodup : s.cycles.flatten.Nodup

/-- What holds while the nodes of `path` are being visited. -/
structure Inv (g : Digraph) (path : List String) (s : CycleSearch) : Prop where
  path_open : ∀ x ∈ path, x ∈ s.stack
  numbered : ∀ x ∈ s.stack, x ∈ s.numbers.keys
  num_lt : ∀ x ∈ s.numbers.keys, s.num x < s.numbers.size
  descending : s.stack.Pairwise fun x y => s.num y < s.num x
  upward : ∀ x ∈ s.stack, ∀ y ∈ s.stack, s.num x ≤ s.num y → g.Reach x y
  returns : ∀ y ∈ s.stack, ∃ x ∈ path, s.num x ≤ s.num y ∧ g.Reach y x
  left : ∀ x ∈ s.numbers.keys, x ∉ path → ∀ y, g.Edge x y → y ∈ s.numbers.keys
  closed : ∀ x, s.Closed x → ∀ y, g.Edge x y → s.Closed y
  reported : Reported g s

/-- Before the search no node is open, and nothing was reported. -/
theorem Inv.initial (g : Digraph) : Inv g [] {} where
  path_open := by simp
  numbered := by simp
  num_lt := by simp
  descending := List.Pairwise.nil
  upward := by simp
  returns := by simp
  left := by simp
  closed := by simp [Closed]
  reported := ⟨by simp, by simp, by simp [Closed], by simp⟩

theorem Inv.nodup (h : Inv g path s) : s.stack.Nodup := by
  refine h.descending.imp ?_
  rintro x y hlt rfl
  exact Nat.lt_irrefl _ hlt

/-- Closed nodes reach closed nodes only. -/
theorem Inv.closed_reach (h : Inv g path s) (hx : s.Closed x) (hreach : g.Reach x y) :
    s.Closed y := by
  induction hreach with
  | refl => exact hx
  | tail _ hedge ih => exact h.closed _ ih _ hedge

/-! ## Entering and leaving a node -/

/-- **A node is entered** that every node being visited reaches. -/
theorem Inv.enter (h : Inv g path s) (hn : n ∉ s.numbers.keys) (hreach : ∀ p ∈ path, g.Reach p n) :
    Inv g (n :: path) (s.enter n) := by
  have hnum : ∀ x ∈ s.numbers.keys, (s.enter n).num x = s.num x :=
    fun x hx => num_of_extends (extends_enter hn) hx
  have hopen : ∀ x ∈ s.stack, (s.enter n).num x = s.num x := fun x hx => hnum x (h.numbered x hx)
  have hlt : ∀ x ∈ s.stack, (s.enter n).num x < (s.enter n).num n := by
    intro x hx
    rw [hopen x hx, num_enter_self]
    exact h.num_lt x (h.numbered x hx)
  refine ⟨?_, ?_, ?_, ?_, ?_, ?_, ?_, ?_, ?_⟩
  · intro x hx
    rcases List.mem_cons.mp hx with rfl | hx
    · exact List.mem_cons_self
    · exact List.mem_cons_of_mem _ (h.path_open x hx)
  · intro x hx
    rcases List.mem_cons.mp hx with rfl | hx
    · exact mem_keys_enter.mpr (Or.inl rfl)
    · exact mem_keys_enter.mpr (Or.inr (h.numbered x hx))
  · intro x hx
    rw [size_enter hn]
    rcases mem_keys_enter.mp hx with rfl | hx
    · rw [num_enter_self]
      exact Nat.lt_succ_self _
    · rw [hnum x hx]
      exact Nat.lt_succ_of_lt (h.num_lt x hx)
  · refine List.Pairwise.cons hlt (h.descending.imp_of_mem ?_)
    intro x y hx hy hxy
    rw [hopen x hx, hopen y hy]
    exact hxy
  · intro x hx y hy hle
    rcases List.mem_cons.mp hx with hxn | hxs <;> rcases List.mem_cons.mp hy with hyn | hys
    · rw [hxn, hyn]
      exact ReflTransGen.refl
    · exact absurd (hlt y hys) (Nat.not_lt.mpr (hxn ▸ hle))
    · -- Open nodes reach the path, and from there the node that is entered.
      obtain ⟨p, hp, _, hback⟩ := h.returns x hxs
      rw [hyn]
      exact ReflTransGen.trans hback (hreach p hp)
    · rw [hopen x hxs, hopen y hys] at hle
      exact h.upward x hxs y hys hle
  · intro y hy
    rcases List.mem_cons.mp hy with rfl | hy
    · exact ⟨y, List.mem_cons_self, Nat.le_refl _, ReflTransGen.refl⟩
    · obtain ⟨p, hp, hle, hback⟩ := h.returns y hy
      refine ⟨p, List.mem_cons_of_mem _ hp, ?_, hback⟩
      rw [hopen p (h.path_open p hp), hopen y hy]
      exact hle
  · intro x hx hpath y hedge
    rw [List.mem_cons, not_or] at hpath
    have hx' : x ∈ s.numbers.keys := (mem_keys_enter.mp hx).resolve_left hpath.1
    exact mem_keys_enter.mpr (Or.inr (h.left x hx' hpath.2 y hedge))
  · intro x hx y hedge
    exact (closed_enter hn).mpr (h.closed x ((closed_enter hn).mp hx) y hedge)
  · refine ⟨h.reported.component, ?_, ?_, h.reported.nodup⟩
    · exact fun c hc m hm => (closed_enter hn).mpr (h.reported.closed c hc m hm)
    · exact fun m hm hcyc => h.reported.complete m ((closed_enter hn).mp hm) hcyc

/-- **A node is left open** if it reaches an open node with a lower number. -/
theorem Inv.leave (h : Inv g (n :: path) s) (hchildren : ∀ c, g.Edge n c → c ∈ s.numbers.keys)
    (hy : y ∈ s.stack) (hlt : s.num y < s.num n) (hreach : g.Reach n y) : Inv g path s where
  path_open x hx := h.path_open x (List.mem_cons_of_mem _ hx)
  numbered := h.numbered
  num_lt := h.num_lt
  descending := h.descending
  upward := h.upward
  returns z hz := by
    obtain ⟨x, hx, hle, hback⟩ := h.returns z hz
    rcases List.mem_cons.mp hx with rfl | hx
    · -- The way back that ended at the node goes on below it.
      obtain ⟨x', hx', hle', hback'⟩ := h.returns y hy
      have hne : x' ≠ x := fun heq => by rw [heq] at hle'; omega
      refine ⟨x', (List.mem_cons.mp hx').resolve_left hne, by omega, ?_⟩
      exact ReflTransGen.trans hback (ReflTransGen.trans hreach hback')
    · exact ⟨x, hx, hle, hback⟩
  left x hx hpath z hedge := by
    by_cases hxn : x = n
    · exact hchildren z (hxn ▸ hedge)
    · exact h.left x hx (by rw [List.mem_cons, not_or]; exact ⟨hxn, hpath⟩) z hedge
  closed := h.closed
  reported := h.reported

/-! ## Closing a component -/

/-- A visited node at which a component ends: no edge leads from it, or from what is above it on the
    stack, to what is below it. -/
structure Rooted (g : Digraph) (path above : List String) (n : String) (old : List String)
    (s : CycleSearch) : Prop where
  inv : Inv g (n :: path) s
  stack : s.stack = above ++ n :: old
  path_old : ∀ x ∈ path, x ∈ old
  children : ∀ c, g.Edge n c → c ∈ s.numbers.keys
  not_old : ∀ x ∈ above ++ [n], ∀ y, g.Edge x y → y ∉ old

namespace Rooted

theorem mem_stack (h : Rooted g path above n old s) :
    x ∈ s.stack ↔ x ∈ above ++ [n] ∨ x ∈ old := by
  rw [h.stack, List.mem_append, List.mem_cons, List.mem_append, List.mem_singleton, or_assoc]

theorem nodup (h : Rooted g path above n old s) : ((above ++ [n]) ++ old).Nodup := by
  rw [List.append_assoc, List.singleton_append, ← h.stack]
  exact h.inv.nodup

theorem not_mem_old (h : Rooted g path above n old s) (hx : x ∈ above ++ [n]) : x ∉ old :=
  fun hold => (List.nodup_append.mp h.nodup).2.2 x hx x hold rfl

theorem not_mem_above (h : Rooted g path above n old s) : n ∉ above := by
  have hnodup := (List.nodup_append.mp h.nodup).1
  exact fun hn => (List.nodup_append.mp hnodup).2.2 n hn n (List.mem_singleton.mpr rfl) rfl

theorem num_old_lt (h : Rooted g path above n old s) (hy : y ∈ old) : s.num y < s.num n := by
  have hdesc := h.inv.descending
  rw [h.stack, List.pairwise_append, List.pairwise_cons] at hdesc
  exact hdesc.2.1.1 y hy

theorem num_le (h : Rooted g path above n old s) (hx : x ∈ above ++ [n]) : s.num n ≤ s.num x := by
  have hdesc := h.inv.descending
  rw [h.stack, List.pairwise_append] at hdesc
  rcases List.mem_append.mp hx with hx | hx
  · exact Nat.le_of_lt (hdesc.2.2 x hx n List.mem_cons_self)
  · rw [List.mem_singleton.mp hx]

/-- An edge from the component stays in it or leads to a closed node. -/
theorem edge (h : Rooted g path above n old s) (hx : x ∈ above ++ [n]) (hedge : g.Edge x y) :
    y ∈ above ++ [n] ∨ s.Closed y := by
  have hkey : y ∈ s.numbers.keys := by
    by_cases hxn : x = n
    · exact h.children y (hxn ▸ hedge)
    · refine h.inv.left x (h.inv.numbered x (h.mem_stack.mpr (Or.inl hx))) ?_ y hedge
      intro hpath
      exact h.not_mem_old hx (h.path_old x ((List.mem_cons.mp hpath).resolve_left hxn))
  by_cases hy : y ∈ s.stack
  · exact Or.inl ((h.mem_stack.mp hy).resolve_right (h.not_old x hx y hedge))
  · exact Or.inr ⟨hkey, hy⟩

theorem reach (h : Rooted g path above n old s) (hx : x ∈ above ++ [n]) (hreach : g.Reach x y) :
    y ∈ above ++ [n] ∨ s.Closed y := by
  induction hreach with
  | refl => exact Or.inl hx
  | tail _ hedge ih =>
    rcases ih with hin | hclosed
    · exact h.edge hin hedge
    · exact Or.inr (h.inv.closed _ hclosed _ hedge)

theorem mem_self : n ∈ above ++ [n] := List.mem_append_right _ (List.mem_singleton.mpr rfl)

/-- **The node and what is above it on the stack are its component.** -/
theorem mem_iff (h : Rooted g path above n old s) : x ∈ above ++ [n] ↔ g.Mutual n x := by
  have hn : n ∈ s.stack := h.mem_stack.mpr (Or.inl mem_self)
  constructor
  · intro hx
    have hxs : x ∈ s.stack := h.mem_stack.mpr (Or.inl hx)
    refine ⟨h.inv.upward n hn x hxs (h.num_le hx), ?_⟩
    -- The way back ends on the path, and all of the path reaches the node.
    obtain ⟨p, hp, _, hback⟩ := h.inv.returns x hxs
    have hps : p ∈ s.stack := h.inv.path_open p hp
    refine ReflTransGen.trans hback (h.inv.upward p hps n hn ?_)
    rcases List.mem_cons.mp hp with rfl | hp
    · exact Nat.le_refl _
    · exact Nat.le_of_lt (h.num_old_lt (h.path_old p hp))
  · rintro ⟨hto, hback⟩
    -- From a closed node there is no way back to an open one.
    refine (h.reach mem_self hto).resolve_right fun hclosed => ?_
    exact (h.inv.closed_reach hclosed hback).2 hn

/-- The test for a component to be reported: the node lies on a cycle. -/
theorem onCycle_iff (h : Rooted g path above n old s) :
    (decide ((above ++ [n]).reverse.length > 1) || g.hasEdge n n) = true ↔ g.OnCycle n := by
  rw [Bool.or_eq_true, decide_eq_true_iff, hasEdge_iff, List.length_reverse, List.length_append,
    List.length_singleton]
  constructor
  · rintro (hlen | hedge)
    · obtain ⟨a, ha⟩ := List.exists_mem_of_length_pos (show 0 < above.length by omega)
      have hne : a ≠ n := fun heq => h.not_mem_above (heq ▸ ha)
      exact onCycle_of_mutual (h.mem_iff.mp (List.mem_append_left _ ha)) hne
    · exact TransGen.single hedge
  · intro hcyc
    obtain ⟨c, hedge, hc⟩ := hcyc.exists_next
    rcases List.mem_append.mp (h.mem_iff.mpr hc) with hc | hc
    · have := List.length_pos_of_mem hc
      exact Or.inl (by omega)
    · exact Or.inr (List.mem_singleton.mp hc ▸ hedge)

/-- Closing a root takes its component off the stack, all at once. -/
theorem close_eq (h : Rooted g path above n old s) :
    s.close g n = { s with
      stack := old
      cycles :=
        if decide ((above ++ [n]).reverse.length > 1) || g.hasEdge n n then
          s.cycles ++ [(above ++ [n]).reverse]
        else s.cycles } := by
  have habove : s.stack.takeWhile (· != n) = above := by
    have hall : ∀ a ∈ above, (a != n) = true := by
      intro a ha
      rw [bne_iff_ne]
      exact fun heq => h.not_mem_above (heq ▸ ha)
    rw [h.stack, List.takeWhile_append_of_pos hall, List.takeWhile_cons, if_neg (by simp),
      List.append_nil]
  have hold : s.stack.drop (above.length + 1) = old := by
    rw [h.stack, List.drop_append, List.drop_eq_nil_of_le (by omega), List.nil_append,
      Nat.add_sub_cancel_left, List.drop_one, List.tail_cons]
  unfold close
  simp only [habove, hold]

/-! What holds once the component is taken off the stack, whatever is then reported. -/

/-- After that the nodes closed before and those of the component are closed, and no others. -/
theorem closed_pop (h : Rooted g path above n old s) (cycles : List (List String)) :
    CycleSearch.Closed { s with stack := old, cycles := cycles } x
      ↔ x ∈ above ++ [n] ∨ s.Closed x := by
  constructor
  · rintro ⟨hkey, hold⟩
    by_cases hx : x ∈ s.stack
    · exact Or.inl ((h.mem_stack.mp hx).resolve_right hold)
    · exact Or.inr ⟨hkey, hx⟩
  · rintro (hx | ⟨hkey, hx⟩)
    · exact ⟨h.inv.numbered x (h.mem_stack.mpr (Or.inl hx)), h.not_mem_old hx⟩
    · exact ⟨hkey, fun hold => hx (h.mem_stack.mpr (Or.inr hold))⟩

/-- Taking the component off keeps the invariant, whatever is reported for it, if the report is
    right. -/
theorem inv_pop (h : Rooted g path above n old s) {cycles : List (List String)}
    (hrep : Reported g { s with stack := old, cycles := cycles }) :
    Inv g path { s with stack := old, cycles := cycles } where
  path_open := h.path_old
  numbered x hx := h.inv.numbered x (h.mem_stack.mpr (Or.inr hx))
  num_lt := h.inv.num_lt
  descending := by
    have hdesc := h.inv.descending
    rw [h.stack, List.pairwise_append, List.pairwise_cons] at hdesc
    exact hdesc.2.1.2
  upward x hx y hy :=
    h.inv.upward x (h.mem_stack.mpr (Or.inr hx)) y (h.mem_stack.mpr (Or.inr hy))
  returns y hy := by
    obtain ⟨x, hx, hle, hback⟩ := h.inv.returns y (h.mem_stack.mpr (Or.inr hy))
    have hxn : x ≠ n := by
      rintro rfl
      exact Nat.not_lt.mpr hle (h.num_old_lt hy)
    exact ⟨x, (List.mem_cons.mp hx).resolve_left hxn, hle, hback⟩
  left x hx hpath y hedge := by
    by_cases hxn : x = n
    · exact h.children y (hxn ▸ hedge)
    · exact h.inv.left x hx (by rw [List.mem_cons, not_or]; exact ⟨hxn, hpath⟩) y hedge
  closed x hx y hedge := by
    rw [h.closed_pop] at hx ⊢
    rcases hx with hx | hx
    · exact h.edge hx hedge
    · exact Or.inr (h.inv.closed x hx y hedge)
  reported := hrep

/-- The report is right if the root lies on a cycle: the component is reported once, and no other
    report has a node of it. -/
theorem reported_of_onCycle (h : Rooted g path above n old s) (hcyc : g.OnCycle n) :
    Reported g { s with stack := old, cycles := s.cycles ++ [(above ++ [n]).reverse] } := by
  have hrep := h.inv.reported
  refine ⟨?_, ?_, ?_, ?_⟩
  · intro c hc
    rcases List.mem_append.mp hc with hc | hc
    · exact hrep.component c hc
    · rw [List.mem_singleton.mp hc]
      exact ⟨n, hcyc, fun m => List.mem_reverse.trans h.mem_iff⟩
  · intro c hc m hm
    rw [h.closed_pop]
    rcases List.mem_append.mp hc with hc | hc
    · exact Or.inr (hrep.closed c hc m hm)
    · rw [List.mem_singleton.mp hc] at hm
      exact Or.inl (List.mem_reverse.mp hm)
  · intro m hm hmcyc
    rcases (h.closed_pop _).mp hm with hin | hclosed
    · exact ⟨_, List.mem_append_right _ (List.mem_singleton.mpr rfl), List.mem_reverse.mpr hin⟩
    · obtain ⟨c, hc, hmc⟩ := hrep.complete m hclosed hmcyc
      exact ⟨c, List.mem_append_left _ hc, hmc⟩
  · rw [List.flatten_append, List.flatten_singleton, List.nodup_append]
    refine ⟨hrep.nodup, List.nodup_reverse.mpr (List.nodup_append.mp h.nodup).1, ?_⟩
    -- What was reported before is closed, and the component has been open until now.
    rintro a ha b hb rfl
    obtain ⟨c, hc, hac⟩ := List.mem_flatten.mp ha
    exact (hrep.closed c hc a hac).2 (h.mem_stack.mpr (Or.inl (List.mem_reverse.mp hb)))

/-- It is right, too, if the root lies on no cycle: then its component is the root alone, and is not
    reported. -/
theorem reported_of_not_onCycle (h : Rooted g path above n old s) (hcyc : ¬ g.OnCycle n) :
    Reported g { s with stack := old, cycles := s.cycles } := by
  have hrep := h.inv.reported
  refine ⟨hrep.component, ?_, ?_, hrep.nodup⟩
  · intro c hc m hm
    exact (h.closed_pop _).mpr (Or.inr (hrep.closed c hc m hm))
  · intro m hm hmcyc
    rcases (h.closed_pop _).mp hm with hin | hclosed
    · exact absurd (hmcyc.of_mutual (h.mem_iff.mp hin).symm) hcyc
    · exact hrep.complete m hclosed hmcyc

/-- **The component of a node is closed**, and reported if it has a cycle. -/
theorem inv_close (h : Rooted g path above n old s) : Inv g path (s.close g n) := by
  rw [h.close_eq]
  by_cases hcyc : g.OnCycle n
  · rw [if_pos (h.onCycle_iff.mpr hcyc)]
    exact h.inv_pop (h.reported_of_onCycle hcyc)
  · rw [if_neg fun hc => hcyc (h.onCycle_iff.mp hc)]
    exact h.inv_pop (h.reported_of_not_onCycle hcyc)

theorem stack_close (h : Rooted g path above n old s) : (s.close g n).stack = old := by
  rw [h.close_eq]

end Rooted

end BuildMeta.Digraph.CycleSearch
