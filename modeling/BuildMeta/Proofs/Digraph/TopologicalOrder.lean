import BuildMeta.Proofs.Digraph.Walk

/-!
# `Proofs.Digraph.TopologicalOrder` — the topological order

An order in which every node comes after all of its children is built by appending.  The invariant is
`Ordered`; `appendOrdered_settles` is the induction along the walk.  Such an order leaves no room for
cycles (`ChildrenFirst.acc`), so the walk succeeds exactly where no cycle is below the roots.

Roots and children are taken in code point order, and the free nodes are those off the path.  Hence two
walks over graphs that differ only in the order in which they are written down go the same way
(`appendOrdered_congr`), and a failure names the same path.
-/

namespace BuildMeta.Digraph

open Relation

variable {g g' : Digraph} {free path nodes order : List String} {n : String}

/-! ## Children first -/

/-- Every node comes after all of its children. -/
def ChildrenFirst (g : Digraph) (order : List String) : Prop :=
  ∀ ⦃before n after⦄, order = before ++ n :: after → ∀ c, g.Edge n c → c ∈ before

theorem ChildrenFirst.nil : g.ChildrenFirst [] := by
  intro before n after h
  exact absurd h (by simp)

/-- A node may be added behind its children. -/
theorem ChildrenFirst.snoc (h : g.ChildrenFirst order) (hn : ∀ c, g.Edge n c → c ∈ order) :
    g.ChildrenFirst (order ++ [n]) := by
  intro before m after heq c hc
  rcases List.eq_nil_or_concat after with rfl | ⟨after', z, rfl⟩
  · obtain ⟨rfl, hm⟩ := List.append_inj' heq rfl
    cases hm
    exact hn c hc
  · rw [List.concat_eq_append, ← List.cons_append, ← List.append_assoc] at heq
    exact h (List.append_inj' heq rfl).1 c hc

/-- What is in the order is closed under paths. -/
theorem ChildrenFirst.reach (h : g.ChildrenFirst order) {m : String} (hn : n ∈ order)
    (hreach : g.Reach n m) : m ∈ order := by
  induction hreach with
  | refl => exact hn
  | tail _ hedge ih =>
    obtain ⟨before, after, heq⟩ := List.append_of_mem ih
    rw [heq]
    exact List.mem_append_left _ (h heq _ hedge)

/-- **Paths inside the order end**: each edge leads to a shorter part of it. -/
theorem ChildrenFirst.acc (h : g.ChildrenFirst order) (hn : n ∈ order) :
    Acc (fun x y => g.Edge y x) n := by
  obtain ⟨before, after, heq⟩ := List.append_of_mem hn
  induction hlen : before.length using Nat.strong_induction_on generalizing before n after with
  | _ len ih =>
    refine ⟨_, fun c hc => ?_⟩
    obtain ⟨before', after', heq'⟩ := List.append_of_mem (h heq c hc)
    have hwhole : order = before' ++ c :: (after' ++ n :: after) := by
      rw [heq, heq', List.append_assoc, List.cons_append]
    have hshort : before'.length < len := by
      rw [← hlen, heq', List.length_append, List.length_cons]
      omega
    exact ih before'.length hshort (by rw [hwhole]; simp) before' _ hwhole rfl

/-- A topological order of its members. -/
structure Ordered (g : Digraph) (order : List String) : Prop where
  nodup : order.Nodup
  childrenFirst : g.ChildrenFirst order

theorem Ordered.nil : g.Ordered [] := ⟨List.nodup_nil, ChildrenFirst.nil⟩

/-- An order stays one if a new node is added behind its children. -/
theorem Ordered.snoc (h : g.Ordered order) (hnew : n ∉ order) (hn : ∀ c, g.Edge n c → c ∈ order) :
    g.Ordered (order ++ [n]) where
  nodup := by
    rw [List.nodup_append]
    refine ⟨h.nodup, List.nodup_singleton n, ?_⟩
    intro a ha b hb hab
    rw [List.mem_singleton] at hb
    exact hnew (hb ▸ hab ▸ ha)
  childrenFirst := h.childrenFirst.snoc hn

/-- There is no cycle below nodes that are in the order. -/
theorem Ordered.not_cycleBelow (h : g.Ordered order) (hnodes : ∀ m ∈ nodes, m ∈ order) :
    ¬ g.CycleBelow nodes := by
  rintro ⟨m, ⟨r, hr, hreach⟩, hcyc⟩
  exact not_cycle_of_acc (h.childrenFirst.acc (h.childrenFirst.reach (hnodes r hr) hreach)) hcyc

/-! ## The walk -/

theorem appendOrdered_of_mem {rest : List String} (h : n ∈ order) :
    g.appendOrdered free path (n :: rest) order = g.appendOrdered free path rest order := by
  rw [appendOrdered, if_pos h]

theorem appendOrdered_of_free {rest : List String} (h : n ∉ order) (hfree : n ∈ free) :
    g.appendOrdered free path (n :: rest) order
      = g.appendOrdered (free.erase n) (path ++ [n]) (Text.sort (g.children n)) order >>=
          fun order => g.appendOrdered free path rest (order ++ [n]) := by
  rw [appendOrdered, if_neg h, dif_pos hfree]

theorem appendOrdered_of_not_free {rest : List String} (h : n ∉ order) (hfree : n ∉ free) :
    g.appendOrdered free path (n :: rest) order = .error (.cycle (path ++ [n])) := by
  rw [appendOrdered, if_neg h, dif_neg hfree]

/-- **The walk** appends free nodes that can be reached, until the given ones are in, or it fails
    because there is a cycle below them. -/
theorem appendOrdered_settles (hd : Descent g free path nodes) (ho : g.Ordered order) :
    (∃ more, g.appendOrdered free path nodes order = .ok (order ++ more) ∧
      g.Ordered (order ++ more) ∧ (∀ m ∈ nodes, m ∈ order ++ more) ∧
      ∀ m ∈ more, g.ReachFrom nodes m ∧ m ∈ free) ∨
    (∃ p, g.appendOrdered free path nodes order = .error (.cycle p)) ∧ g.CycleBelow nodes := by
  induction free, path, nodes, order using appendOrdered.induct g with
  | case1 free path order =>
    refine Or.inl ⟨[], ?_, ?_, ?_, ?_⟩
    · rw [appendOrdered, List.append_nil]
    · rw [List.append_nil]
      exact ho
    · intro m hm
      exact absurd hm List.not_mem_nil
    · intro m hm
      exact absurd hm List.not_mem_nil
  | case2 free path n rest order hmem ih =>
    rw [appendOrdered_of_mem hmem]
    rcases ih hd.tail ho with ⟨more, hout, ho', hin, hmore⟩ | ⟨hfail, hcyc⟩
    · refine Or.inl ⟨more, hout, ho', ?_, ?_⟩
      · intro m hm
        rcases List.mem_cons.mp hm with rfl | hm'
        · exact List.mem_append_left _ hmem
        · exact hin m hm'
      · intro m hm
        obtain ⟨hbelow, hfree⟩ := hmore m hm
        exact ⟨hbelow.of_subset fun _ => List.mem_cons_of_mem n, hfree⟩
    · exact Or.inr ⟨hfail, hcyc.of_subset fun _ => List.mem_cons_of_mem n⟩
  | case3 free path n rest order hmem hfree ihdown ihrest =>
    rw [appendOrdered_of_free hmem hfree]
    have hdown : Descent g (free.erase n) (path ++ [n]) (Text.sort (g.children n)) :=
      (hd.down List.mem_cons_self).of_subset fun _ => Text.mem_sort.mp
    rcases ihdown hdown ho with ⟨below, hout, ho₁, hin₁, hbelow⟩ | ⟨⟨p, hfail⟩, hcyc⟩
    · rw [hout, Failure.ok_bind]
      -- The nodes appended below were free without `n`, so `n` itself is still new.
      have hnew : n ∉ order ++ below := by
        rw [List.mem_append, not_or]
        refine ⟨hmem, fun hn => ?_⟩
        have hin := (hbelow n hn).2
        rw [hd.nodup.mem_erase_iff] at hin
        exact hin.1 rfl
      have ho₂ : g.Ordered (order ++ below ++ [n]) :=
        ho₁.snoc hnew fun c hc => hin₁ c (Text.mem_sort.mpr hc)
      rcases ihrest (order ++ below) hd.tail ho₂ with ⟨more, hout', ho', hin, hmore⟩ | ⟨hfail, hcyc⟩
      · refine Or.inl ⟨below ++ n :: more, ?_, ?_, ?_, ?_⟩
        · rw [hout']
          simp only [List.append_assoc, List.cons_append, List.nil_append]
        · simpa only [List.append_assoc, List.cons_append, List.nil_append] using ho'
        · intro m hm
          rcases List.mem_cons.mp hm with rfl | hm'
          · simp
          · simpa only [List.append_assoc, List.cons_append, List.nil_append] using hin m hm'
        · intro m hm
          rcases List.mem_append.mp hm with hm' | hm'
          · obtain ⟨hreach, hin⟩ := hbelow m hm'
            have hchild := hreach.of_subset fun _ => Text.mem_sort.mp
            exact ⟨hchild.of_children List.mem_cons_self, List.mem_of_mem_erase hin⟩
          · rcases List.mem_cons.mp hm' with rfl | hm''
            · exact ⟨reachFrom_of_mem List.mem_cons_self, hfree⟩
            · obtain ⟨hreach, hin⟩ := hmore m hm''
              exact ⟨hreach.of_subset fun _ => List.mem_cons_of_mem n, hin⟩
      · exact Or.inr ⟨hfail, hcyc.of_subset fun _ => List.mem_cons_of_mem n⟩
    · refine Or.inr ⟨⟨p, ?_⟩, ?_⟩
      · rw [hfail, Failure.error_bind]
      · exact (hcyc.of_subset fun _ => Text.mem_sort.mp).of_children List.mem_cons_self
  | case4 free path n rest order hmem hfree =>
    refine Or.inr ⟨⟨path ++ [n], appendOrdered_of_not_free hmem hfree⟩, ?_⟩
    exact cycleBelow_of_mem List.mem_cons_self (hd.onCycle List.mem_cons_self hfree)

/-! ## Walks over the same graph in another order -/

/-- **The walk does not depend on how the graph is written down.**  Both walks stand at the same place of
    the same path; which nodes are free is then decided by the path. -/
theorem appendOrdered_congr {free' : List String}
    (hsame : ∀ m, (g.children m).Perm (g'.children m)) (hd : Descent g free path nodes)
    (hd' : Descent g' free' path nodes) :
    g.appendOrdered free path nodes order = g'.appendOrdered free' path nodes order := by
  induction free, path, nodes, order using appendOrdered.induct g generalizing free' with
  | case1 free path order => rw [appendOrdered, appendOrdered]
  | case2 free path n rest order hmem ih =>
    rw [appendOrdered_of_mem hmem, appendOrdered_of_mem hmem]
    exact ih hd.tail hd'.tail
  | case3 free path n rest order hmem hfree ihdown ihrest =>
    have hfree' : n ∈ free' := by
      rw [hd'.mem_free_iff List.mem_cons_self]
      exact (hd.mem_free_iff List.mem_cons_self).mp hfree
    rw [appendOrdered_of_free hmem hfree, appendOrdered_of_free hmem hfree',
      ← Text.sort_eq_of_perm (hsame n)]
    have hdown := (hd.down (n := n) List.mem_cons_self).of_subset fun _ => Text.mem_sort.mp
    have hdown' := (hd'.down (n := n) List.mem_cons_self).of_subset fun m hm =>
      (hsame n).mem_iff.mp (Text.mem_sort.mp hm)
    rw [ihdown hdown hdown']
    refine congrArg (_ >>= ·) (funext fun found => ?_)
    exact ihrest found hd.tail hd'.tail
  | case4 free path n rest order hmem hfree =>
    have hfree' : n ∉ free' := by
      rw [hd'.mem_free_iff List.mem_cons_self]
      exact (hd.mem_free_iff List.mem_cons_self).not.mp hfree
    rw [appendOrdered_of_not_free hmem hfree, appendOrdered_of_not_free hmem hfree']

/-! ## The order from given roots -/

theorem descent_sorted_roots (g : Digraph) (roots : List String) :
    Descent g (g.nodesWith roots) [] (Text.sort roots) :=
  (descent_roots g roots).of_subset fun _ => Text.mem_sort.mp

/-- A search for an order ends in one of two ways: with all nodes below the roots, children first,
    or with a cycle below them. -/
theorem orderFrom_settles (g : Digraph) (roots : List String) :
    (∃ order, g.orderFrom roots = .ok order ∧ g.Ordered order ∧
      ∀ n, n ∈ order ↔ g.ReachFrom roots n) ∨
    (∃ p, g.orderFrom roots = .error (.cycle p)) ∧ g.CycleBelow roots := by
  unfold orderFrom
  rcases appendOrdered_settles (descent_sorted_roots g roots) Ordered.nil with
    ⟨order, hout, ho, hin, hreach⟩ | ⟨hfail, hcyc⟩
  · rw [List.nil_append] at hout ho hin
    refine Or.inl ⟨order, hout, ho, fun n => ⟨?_, ?_⟩⟩
    · intro hn
      exact (hreach n hn).1.of_subset fun _ => Text.mem_sort.mp
    · rintro ⟨r, hr, hpath⟩
      exact ho.childrenFirst.reach (hin r (Text.mem_sort.mpr hr)) hpath
  · exact Or.inr ⟨hfail, hcyc.of_subset fun _ => Text.mem_sort.mp⟩

/-- Without cycles there is an order of all nodes. -/
theorem exists_order_of_acyclic (hacyc : g.Acyclic) :
    ∃ order, g.order = .ok order ∧ g.Ordered order ∧ ∀ n, n ∈ order ↔ n ∈ g.nodes := by
  rcases orderFrom_settles g g.rootNodes with ⟨order, hout, ho, hmem⟩ | ⟨_, hcyc⟩
  · exact ⟨order, hout, ho, fun n => (hmem n).trans (reachFrom_rootNodes hacyc)⟩
  · exact absurd hcyc (not_cycleBelow_of_acyclic hacyc)

theorem orderFrom_eq_of_sameUpToOrder {roots roots' : List String} (h : SameUpToOrder g g')
    (hroots : roots.Perm roots') : g'.orderFrom roots' = g.orderFrom roots := by
  unfold orderFrom
  rw [← Text.sort_eq_of_perm hroots]
  refine (appendOrdered_congr h.children (descent_sorted_roots g roots) ?_).symm
  exact (descent_roots g' roots').of_subset fun m hm => hroots.mem_iff.mp (Text.mem_sort.mp hm)

/-- **The topological order is sound, complete and canonical.**  It fails with a cycle exactly if one
    can be reached from a root.  Otherwise it lists the nodes below the roots, each once and after its
    children.  The result is the same however graph and roots are written down, and without given roots
    the order of a graph without cycles holds all its nodes. -/
theorem orderFrom_topological (g : Digraph) (roots : List String) :
    ((∃ p, g.orderFrom roots = .error (.cycle p)) ↔ g.CycleBelow roots) ∧
    (¬ g.CycleBelow roots → ∃ order, g.orderFrom roots = .ok order ∧ order.Nodup ∧
      (∀ n, n ∈ order ↔ g.ReachFrom roots n) ∧ g.ChildrenFirst order) ∧
    (∀ g', SameUpToOrder g g' → g'.order = g.order ∧
      ∀ roots', roots.Perm roots' → g'.orderFrom roots' = g.orderFrom roots) ∧
    (g.Acyclic → ∃ order, g.order = .ok order ∧
      ∀ n, n ∈ order ↔ n ∈ g.keys ∨ ∃ m, g.Edge m n) := by
  refine ⟨⟨?_, ?_⟩, ?_, ?_, ?_⟩
  · rintro ⟨p, hfail⟩
    rcases orderFrom_settles g roots with ⟨order, hout, _⟩ | ⟨_, hcyc⟩
    · rw [hfail] at hout
      cases hout
    · exact hcyc
  · intro hcyc
    rcases orderFrom_settles g roots with ⟨order, _, ho, hmem⟩ | ⟨hfail, _⟩
    · refine absurd hcyc (ho.not_cycleBelow fun r hr => ?_)
      exact (hmem r).mpr (reachFrom_of_mem hr)
    · exact hfail
  · intro hno
    rcases orderFrom_settles g roots with ⟨order, hout, ho, hmem⟩ | ⟨_, hcyc⟩
    · exact ⟨order, hout, ho.nodup, hmem, ho.childrenFirst⟩
    · exact absurd hcyc hno
  · intro g' hsame
    exact ⟨orderFrom_eq_of_sameUpToOrder hsame hsame.rootNodes,
      fun roots' hperm => orderFrom_eq_of_sameUpToOrder hsame hperm⟩
  · intro hacyc
    rcases orderFrom_settles g g.rootNodes with ⟨order, hout, _, hmem⟩ | ⟨_, hcyc⟩
    · refine ⟨order, hout, fun n => ?_⟩
      rw [hmem, reachFrom_rootNodes hacyc, mem_nodes]
    · exact absurd hcyc (not_cycleBelow_of_acyclic hacyc)

end BuildMeta.Digraph
