import BuildMeta.Proofs.Digraph.CycleSearch

/-!
# `Proofs.Digraph.Cycles` — the cycles of a digraph are its cyclic components

`Visited` says what a visit of some nodes does to the state of the search and what the number that it
returns means: it is a bound for the numbers of all open nodes that an edge from a visited node leads to,
and unless it is the bound given, one of them has it.  Visits of one node and of the others compose
(`Visited.cons`), and a visit of the children of a node becomes one of the node, whether the node is then
left open (`Visited.of_open`) or closed (`Visited.of_closed`).  The rest is the induction along the
search (`visitNodes_visited`) and along the roots (`searchRoots_inv`), after which no node is open.
-/

namespace BuildMeta.Digraph

open Relation CycleSearch

variable {g : Digraph} {free path nodes rest : List String} {low low' number below : Nat}
  {s s' s₁ s₂ : CycleSearch} {n : String}

/-! ## Visits -/

/-- What a visit of nodes needs: the nodes being visited reach them, and all nodes that are not free are
    numbered. -/
structure Ready (g : Digraph) (free path : List String) (low : Nat) (nodes : List String)
    (s : CycleSearch) : Prop where
  inv : Inv g path s
  reach : ∀ p ∈ path, ∀ m ∈ nodes, g.Reach p m
  low_le : low ≤ s.numbers.size
  mem_nodes : ∀ m ∈ nodes, m ∈ g.nodes
  covered : ∀ m ∈ g.nodes, m ∉ free → m ∈ s.numbers.keys

/-- What a visit of nodes does. -/
structure Visited (g : Digraph) (path nodes : List String) (low : Nat) (s : CycleSearch)
    (low' : Nat) (s' : CycleSearch) : Prop where
  inv : Inv g path s'
  grows : s.numbers.Extends s'.numbers
  size_le : s.numbers.size ≤ s'.numbers.size
  stack : ∃ new, s'.stack = new ++ s.stack ∧ (∀ x ∈ new, x ∉ s.numbers.keys) ∧
    ∀ x ∈ new, ∀ y, g.Edge x y → y ∈ s.stack → low' ≤ s'.num y
  numbered : ∀ m ∈ nodes, m ∈ s'.numbers.keys
  low_le : low' ≤ low
  low_eq : low' = low ∨ ∃ y ∈ s'.stack, s'.num y = low' ∧ g.ReachFrom nodes y
  low_le_num : ∀ m ∈ nodes, m ∈ s'.stack → low' ≤ s'.num m

namespace Visited

theorem mem_stack (h : Visited g path nodes low s low' s') {x : String} (hx : x ∈ s.stack) :
    x ∈ s'.stack := by
  obtain ⟨new, hstack, _⟩ := h.stack
  rw [hstack]
  exact List.mem_append_right _ hx

/-- Visiting no nodes changes nothing. -/
theorem nil (h : Inv g path s) : Visited g path [] low s low s where
  inv := h
  grows := Table.Extends.refl _
  size_le := Nat.le_refl _
  stack := ⟨[], rfl, by simp, by simp⟩
  numbered := by simp
  low_le := Nat.le_refl _
  low_eq := Or.inl rfl
  low_le_num := by simp

/-- A node that was numbered before stays as it is. -/
theorem of_numbered (h : Inv g path s) (hn : s.numbers.get? n = some number) :
    Visited g path [n] low s (if s.stack.contains n then min low number else low) s where
  inv := h
  grows := Table.Extends.refl _
  size_le := Nat.le_refl _
  stack := ⟨[], rfl, by simp, by simp⟩
  numbered m hm := by
    rw [List.mem_singleton.mp hm]
    exact Table.mem_keys_of_get? hn
  low_le := by
    split
    · exact Nat.min_le_left _ _
    · exact Nat.le_refl _
  low_eq := by
    split
    · rename_i hopen
      rcases Nat.le_total low number with hle | hle
      · exact Or.inl (Nat.min_eq_left hle)
      · refine Or.inr ⟨n, List.contains_iff_mem.mp hopen, ?_, reachFrom_of_mem List.mem_cons_self⟩
        rw [num_of_get? hn, Nat.min_eq_right hle]
    · exact Or.inl rfl
  low_le_num m hm hopen := by
    obtain rfl := List.mem_singleton.mp hm
    rw [if_pos (List.contains_iff_mem.mpr hopen), num_of_get? hn]
    exact Nat.min_le_right _ _

/-- **Visits compose.** -/
theorem cons (h : Visited g path [n] low s low' s₁) (h' : Visited g path rest low' s₁ below s₂) :
    Visited g path (n :: rest) low s below s₂ := by
  have hnum : ∀ x ∈ s₁.numbers.keys, s₂.num x = s₁.num x := fun x hx => num_of_extends h'.grows hx
  have hopen : ∀ x ∈ s₁.stack, s₂.num x = s₁.num x := fun x hx => hnum x (h.inv.numbered x hx)
  obtain ⟨new, hstack, hfresh, hlow⟩ := h.stack
  obtain ⟨new', hstack', hfresh', hlow'⟩ := h'.stack
  refine ⟨h'.inv, h.grows.trans h'.grows, Nat.le_trans h.size_le h'.size_le, ?_, ?_,
    Nat.le_trans h'.low_le h.low_le, ?_, ?_⟩
  · refine ⟨new' ++ new, by rw [hstack', hstack, List.append_assoc], ?_, ?_⟩
    · intro x hx hkey
      rcases List.mem_append.mp hx with hx | hx
      · exact hfresh' x hx (h.grows.mem_keys hkey)
      · exact hfresh x hx hkey
    · intro x hx y hedge hy
      rcases List.mem_append.mp hx with hx | hx
      · exact hlow' x hx y hedge (h.mem_stack hy)
      · rw [hopen y (h.mem_stack hy)]
        exact Nat.le_trans h'.low_le (hlow x hx y hedge hy)
  · intro m hm
    rcases List.mem_cons.mp hm with rfl | hm
    · exact h'.grows.mem_keys (h.numbered m (List.mem_singleton.mpr rfl))
    · exact h'.numbered m hm
  · rcases h'.low_eq with heq | ⟨y, hy, hnumy, hreach⟩
    · rcases h.low_eq with hlow | ⟨y, hy, hnumy, hreach⟩
      · exact Or.inl (heq.trans hlow)
      · refine Or.inr ⟨y, h'.mem_stack hy, ?_, hreach.of_subset ?_⟩
        · rw [hopen y hy, hnumy, heq]
        · simp
    · exact Or.inr ⟨y, hy, hnumy, hreach.of_subset fun _ => List.mem_cons_of_mem n⟩
  · intro m hm hmopen
    rcases List.mem_cons.mp hm with rfl | hm
    · have hkey := h.numbered m (List.mem_singleton.mpr rfl)
      -- A node numbered by the first visit is open after the second only if it was so between them.
      have hopen₁ : m ∈ s₁.stack := by
        rw [hstack'] at hmopen
        exact (List.mem_append.mp hmopen).resolve_left fun hnew => hfresh' m hnew hkey
      rw [hnum m hkey]
      exact Nat.le_trans h'.low_le (h.low_le_num m (List.mem_singleton.mpr rfl) hopen₁)
    · exact h'.low_le_num m hm hmopen

end Visited

/-! ## The visit of one node

In this section the node `n` is entered and the visit of its children is over. -/

section Children

variable (h : Inv g path s) (hn : n ∉ s.numbers.keys)
  (hd : Visited g (n :: path) (g.children n) s.numbers.size (s.enter n) below s₁)

include hn hd

theorem Visited.children_grows : s.numbers.Extends s₁.numbers := (extends_enter hn).trans hd.grows

theorem Visited.children_size_le : s.numbers.size ≤ s₁.numbers.size := by
  have hle := hd.size_le
  rw [size_enter hn] at hle
  exact Nat.le_of_succ_le hle

omit hn in
theorem Visited.mem_keys_self : n ∈ s₁.numbers.keys :=
  hd.grows.mem_keys (mem_keys_enter.mpr (Or.inl rfl))

omit hn in
theorem Visited.num_self : s₁.num n = s.numbers.size := by
  rw [num_of_extends hd.grows (mem_keys_enter.mpr (Or.inl rfl)), num_enter_self]

/-- The node lies on the stack above what was there before, and what the visit returns bounds the
    numbers of the open nodes below it to which edges lead. -/
theorem Visited.children_stack : ∃ above, s₁.stack = above ++ n :: s.stack ∧
    (∀ x ∈ above ++ [n], x ∉ s.numbers.keys) ∧
    ∀ x ∈ above ++ [n], ∀ y, g.Edge x y → y ∈ s.stack → below ≤ s₁.num y := by
  obtain ⟨above, hstack, hfresh, hlow⟩ := hd.stack
  refine ⟨above, hstack, ?_, ?_⟩
  · intro x hx hkey
    rcases List.mem_append.mp hx with hx | hx
    · exact hfresh x hx (mem_keys_enter.mpr (Or.inr hkey))
    · exact hn (List.mem_singleton.mp hx ▸ hkey)
  · intro x hx y hedge hy
    rcases List.mem_append.mp hx with hx | hx
    · exact hlow x hx y hedge (List.mem_cons_of_mem _ hy)
    · rw [List.mem_singleton.mp hx] at hedge
      exact hd.low_le_num y hedge (hd.mem_stack (List.mem_cons_of_mem _ hy))

/-- **The node is left open** if its children lead below it. -/
theorem Visited.of_open (hlt : below < s.numbers.size) :
    Visited g path [n] low s (min low below) s₁ := by
  have hnum := hd.num_self
  obtain ⟨y, hy, hnumy, c, hc, hreach⟩ := hd.low_eq.resolve_left (Nat.ne_of_lt hlt)
  have hny : g.Reach n y := ReflTransGen.head hc hreach
  obtain ⟨above, hstack, hfresh, hlow⟩ := hd.children_stack hn
  refine ⟨hd.inv.leave hd.numbered hy (by omega) hny, hd.children_grows hn, hd.children_size_le hn,
    ⟨above ++ [n], ?_, hfresh, ?_⟩, ?_, Nat.min_le_left _ _, ?_, ?_⟩
  · rw [hstack, List.append_assoc, List.singleton_append]
  · intro x hx z hedge hz
    exact Nat.le_trans (Nat.min_le_right _ _) (hlow x hx z hedge hz)
  · intro m hm
    rw [List.mem_singleton.mp hm]
    exact hd.mem_keys_self
  · rcases Nat.le_total low below with hle | hle
    · exact Or.inl (Nat.min_eq_left hle)
    · refine Or.inr ⟨y, hy, ?_, n, List.mem_singleton.mpr rfl, hny⟩
      rw [hnumy, Nat.min_eq_right hle]
  · intro m hm _
    rw [List.mem_singleton.mp hm, hnum]
    exact Nat.le_trans (Nat.min_le_right _ _) (Nat.le_of_lt hlt)

include h

/-- If the children do not lead below the node, a component ends at it. -/
theorem Visited.rooted (heq : below = s.numbers.size) :
    ∃ above, Rooted g path above n s.stack s₁ := by
  obtain ⟨above, hstack, _, hlow⟩ := hd.children_stack hn
  refine ⟨above, hd.inv, hstack, h.path_open, hd.numbered, ?_⟩
  intro x hx y hedge hy
  have hle := hlow x hx y hedge hy
  have hkey := h.numbered y hy
  rw [num_of_extends (hd.children_grows hn) hkey, heq] at hle
  exact Nat.not_lt.mpr hle (h.num_lt y hkey)

/-- **The node is closed** otherwise. -/
theorem Visited.of_closed (heq : below = s.numbers.size) (hlow : low ≤ s.numbers.size) :
    Visited g path [n] low s (min low below) (s₁.close g n) := by
  obtain ⟨above, hroot⟩ := Visited.rooted h hn hd heq
  have hstack : (s₁.close g n).stack = s.stack := hroot.stack_close
  have hgrows := hd.children_grows hn
  have hsize := hd.children_size_le hn
  refine ⟨hroot.inv_close, hgrows, hsize, ⟨[], hstack, by simp, by simp⟩, ?_, Nat.min_le_left _ _,
    ?_, ?_⟩
  · intro m hm
    rw [List.mem_singleton.mp hm]
    exact hd.mem_keys_self
  · -- The number of the closed node is no bound for open ones, but the bound given is not above it.
    exact Or.inl (Nat.min_eq_left (heq ▸ hlow))
  · intro m hm hopen
    rw [List.mem_singleton.mp hm, hstack] at hopen
    exact absurd (h.numbered n hopen) hn

end Children

/-! ## The search -/

/-- The search goes down to the children of a node that it enters, with one node fewer to enter. -/
theorem Ready.down (h : Ready g free path low (n :: rest) s) (hn : n ∉ s.numbers.keys) :
    Ready g (free.erase n) (n :: path) s.numbers.size (g.children n) (s.enter n) where
  inv := h.inv.enter hn fun p hp => h.reach p hp n List.mem_cons_self
  reach p hp c hc := by
    rcases List.mem_cons.mp hp with rfl | hp
    · exact ReflTransGen.single hc
    · exact ReflTransGen.tail (h.reach p hp n List.mem_cons_self) hc
  low_le := by
    rw [size_enter hn]
    exact Nat.le_succ _
  mem_nodes c hc := Edge.mem_nodes_right (m := n) hc
  covered m hm hfree := by
    by_cases hmn : m = n
    · exact mem_keys_enter.mpr (Or.inl hmn)
    · rw [List.mem_erase_of_ne hmn] at hfree
      exact mem_keys_enter.mpr (Or.inr (h.covered m hm hfree))

theorem Ready.next (h : Ready g free path low (n :: rest) s)
    (hv : Visited g path [n] low s low' s₁) : Ready g free path low' rest s₁ where
  inv := hv.inv
  reach p hp m hm := h.reach p hp m (List.mem_cons_of_mem _ hm)
  low_le := Nat.le_trans hv.low_le (Nat.le_trans h.low_le hv.size_le)
  mem_nodes m hm := h.mem_nodes m (List.mem_cons_of_mem _ hm)
  covered m hm hfree := hv.grows.mem_keys (h.covered m hm hfree)

theorem visitNodes_of_numbered (h : s.numbers.get? n = some number) :
    visitNodes g free low (n :: rest) s
      = visitNodes g free (if s.stack.contains n then min low number else low) rest s := by
  rw [visitNodes]
  simp only [h]

theorem visitNodes_of_free (h : s.numbers.get? n = none) (hfree : n ∈ free)
    (hdown : visitNodes g (free.erase n) s.numbers.size (g.children n) (s.enter n) = (below, s₁)) :
    visitNodes g free low (n :: rest) s
      = visitNodes g free (min low below) rest
          (if below == s.numbers.size then s₁.close g n else s₁) := by
  rw [visitNodes]
  simp only [h, dif_pos hfree, hdown]

/-- **The search** visits the given nodes. -/
theorem visitNodes_visited (h : Ready g free path low nodes s) :
    Visited g path nodes low s (visitNodes g free low nodes s).1 (visitNodes g free low nodes s).2 := by
  induction free, low, nodes, s using visitNodes.induct g generalizing path with
  | case1 free low s =>
    rw [visitNodes]
    exact Visited.nil h.inv
  | case2 free low n rest s number hnumber ih =>
    rw [visitNodes_of_numbered hnumber]
    have hv : Visited g path [n] low s _ s := Visited.of_numbered h.inv hnumber
    exact hv.cons (ih (h.next hv))
  | case3 free low n rest s hnone hfree number below s₁ hdown s₂ ihdown =>
    rename_i ihrest
    have hn : n ∉ s.numbers.keys := Table.get?_eq_none_iff.mp hnone
    have hd := ihdown (h.down hn)
    rw [hdown] at hd
    rw [visitNodes_of_free hnone hfree hdown]
    -- The children either lead below the node or they do not; both are visits of the node alone.
    have hv : Visited g path [n] low s (min low below)
        (if below == s.numbers.size then s₁.close g n else s₁) := by
      by_cases heq : below = s.numbers.size
      · rw [if_pos (beq_iff_eq.mpr heq)]
        exact Visited.of_closed h.inv hn hd heq h.low_le
      · rw [if_neg (by rw [beq_iff_eq]; exact heq)]
        exact Visited.of_open hn hd (Nat.lt_of_le_of_ne hd.low_le heq)
    exact hv.cons (ihrest (h.next hv))
  | case4 free low n rest s hnone hfree ih =>
    -- Only numbered nodes are not free.
    have hkey := h.covered n (h.mem_nodes n List.mem_cons_self) hfree
    exact absurd hkey (Table.get?_eq_none_iff.mp hnone)

/-- The state of the search after visiting roots in turn. -/
def searchRoots (g : Digraph) (roots : List String) (s : CycleSearch) : CycleSearch :=
  roots.foldl (fun s n => (visitNodes g g.nodes 0 [n] s).2) s

/-- **Roots in turn**: between them no node is being visited, and in the end all are numbered. -/
theorem searchRoots_inv {roots : List String} (hroots : ∀ r ∈ roots, r ∈ g.nodes) (h : Inv g [] s) :
    Inv g [] (g.searchRoots roots s) ∧ s.numbers.Extends (g.searchRoots roots s).numbers ∧
      ∀ r ∈ roots, r ∈ (g.searchRoots roots s).numbers.keys := by
  induction roots generalizing s with
  | nil => exact ⟨h, Table.Extends.refl _, by simp⟩
  | cons r rest ih =>
    have hready : Ready g g.nodes [] 0 [r] s :=
      ⟨h, by simp, Nat.zero_le _, by simpa using hroots r List.mem_cons_self,
        fun m hm hfree => absurd hm hfree⟩
    have hv := visitNodes_visited hready
    obtain ⟨hinv, hgrows, hkeys⟩ := ih (fun m hm => hroots m (List.mem_cons_of_mem _ hm)) hv.inv
    refine ⟨hinv, hv.grows.trans hgrows, ?_⟩
    intro m hm
    rcases List.mem_cons.mp hm with rfl | hm
    · exact hgrows.mem_keys (hv.numbered m (List.mem_singleton.mpr rfl))
    · exact hkeys m hm

/-- Between roots the stack is empty. -/
theorem CycleSearch.Inv.stack_eq_nil (h : Inv g [] s) : s.stack = [] := by
  refine List.eq_nil_iff_forall_not_mem.mpr fun x hx => ?_
  obtain ⟨p, hp, _⟩ := h.returns x hx
  exact absurd hp List.not_mem_nil

/-! ## The cycles of a graph -/

/-- The cycles found, as node sets. -/
def cycleSets (g : Digraph) : Set (Set String) := {C | ∃ c ∈ g.cycles, {n | n ∈ c} = C}

/-- The search ends with all keys closed. -/
theorem exists_search (g : Digraph) :
    ∃ s, s.cycles = g.cycles ∧ Reported g s ∧ ∀ n ∈ g.keys, s.Closed n := by
  have hroots : ∀ r ∈ Text.sort g.keys, r ∈ g.nodes :=
    fun r hr => mem_nodes.mpr (Or.inl (Text.mem_sort.mp hr))
  obtain ⟨hinv, _, hkeys⟩ := searchRoots_inv hroots (Inv.initial g)
  refine ⟨g.searchRoots (Text.sort g.keys) {}, rfl, hinv.reported,
    fun n hn => ⟨hkeys n (Text.mem_sort.mpr hn), ?_⟩⟩
  rw [hinv.stack_eq_nil]
  exact List.not_mem_nil

theorem exists_component_of_mem_cycles {c : List String} (hc : c ∈ g.cycles) :
    ∃ n, g.OnCycle n ∧ ∀ m, m ∈ c ↔ g.Mutual n m := by
  obtain ⟨s, hs, hrep, _⟩ := g.exists_search
  exact hrep.component c (hs ▸ hc)

theorem exists_mem_cycles_of_onCycle (h : g.OnCycle n) : ∃ c ∈ g.cycles, n ∈ c := by
  obtain ⟨s, hs, hrep, hclosed⟩ := g.exists_search
  obtain ⟨c, hedge, _⟩ := h.exists_next
  exact hs ▸ hrep.complete n (hclosed n hedge.mem_keys) h

theorem nodup_flatten_cycles (g : Digraph) : g.cycles.flatten.Nodup := by
  obtain ⟨s, hs, hrep, _⟩ := g.exists_search
  exact hs ▸ hrep.nodup

/-- The components of the specification are the strongly connected ones that hold a cycle. -/
theorem mem_cycleSets {C : Set String} : C ∈ g.cycleSets ↔ g.IsComponent C ∧ g.IsCyclic C := by
  constructor
  · rintro ⟨c, hc, rfl⟩
    obtain ⟨n, hcyc, hmem⟩ := exists_component_of_mem_cycles hc
    have hset : {m | m ∈ c} = {m | g.Mutual n m} := Set.ext hmem
    exact ⟨⟨n, hcyc.mem_nodes, hset⟩, hset ▸ isCyclic_iff.mpr hcyc⟩
  · rintro ⟨⟨n, _, rfl⟩, hcyclic⟩
    obtain ⟨c, hc, hn⟩ := exists_mem_cycles_of_onCycle (isCyclic_iff.mp hcyclic)
    obtain ⟨k, _, hmem⟩ := exists_component_of_mem_cycles hc
    have hkn : g.Mutual k n := (hmem n).mp hn
    refine ⟨c, hc, Set.ext fun m => (hmem m).trans ?_⟩
    exact ⟨hkn.symm.trans, hkn.trans⟩

/-- Different places of the answer hold different node sets, as no list is empty. -/
theorem pairwise_cycles (g : Digraph) :
    g.cycles.Pairwise fun c c' => {n | n ∈ c} ≠ {n | n ∈ c'} := by
  have hdisj := (List.nodup_flatten.mp g.nodup_flatten_cycles).2
  refine hdisj.imp_of_mem ?_
  intro c c' hc _ hcc heq
  obtain ⟨n, _, hmem⟩ := exists_component_of_mem_cycles hc
  have hn : n ∈ c := (hmem n).mpr (Mutual.refl g n)
  have hn' : n ∈ {m | m ∈ c'} := heq ▸ hn
  exact hcc hn hn'

/-- The search reports nothing exactly if there is nothing to report. -/
theorem cycles_eq_nil_iff : g.cycles = [] ↔ g.Acyclic := by
  constructor
  · intro hnil n hcyc
    obtain ⟨c, hc, _⟩ := exists_mem_cycles_of_onCycle hcyc
    rw [hnil] at hc
    exact absurd hc List.not_mem_nil
  · intro hacyc
    refine List.eq_nil_iff_forall_not_mem.mpr fun c hc => ?_
    obtain ⟨n, hcyc, _⟩ := exists_component_of_mem_cycles hc
    exact hacyc n hcyc

/-- **The cycles are the strongly connected components that have a cycle in them.**  The lists are, as
    node sets, the components of two or more nodes and those of one node with an edge to itself.  Each
    is listed once, no node is listed twice, the node sets do not depend on the order in which the graph
    is written down, and there are none exactly if the graph has no directed cycle. -/
theorem cycles_components (g : Digraph) :
    g.cycleSets = {C | g.IsComponent C ∧ g.IsCyclic C} ∧
    g.cycles.Pairwise (fun c c' => {n | n ∈ c} ≠ {n | n ∈ c'}) ∧
    g.cycles.flatten.Nodup ∧
    (∀ g', SameUpToOrder g g' → g'.cycleSets = g.cycleSets) ∧
    (g.cycles = [] ↔ g.Acyclic) := by
  refine ⟨Set.ext fun C => mem_cycleSets, g.pairwise_cycles, g.nodup_flatten_cycles, ?_,
    cycles_eq_nil_iff⟩
  intro g' h
  ext C
  rw [mem_cycleSets, mem_cycleSets, h.isComponent_iff, h.isCyclic_iff]

-- Two cycles that share a node, a node with an edge to itself, and a child that is not a key.
example : Digraph.cycles (.ofList [("d", ["d", "a"]), ("a", ["b", "b"]), ("b", ["c", "a"]),
    ("c", ["b", "x"])]) = [["a", "b", "c"], ["d"]] := by cbv

end BuildMeta.Digraph
