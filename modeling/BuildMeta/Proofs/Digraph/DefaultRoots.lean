import BuildMeta.Proofs.Digraph.Levels
import BuildMeta.Proofs.Digraph.TopologicalOrder
import Mathlib

/-!
# `Proofs.Digraph.DefaultRoots` — searches that choose their own roots

Without given roots both searches start at the keys that are nobody's child.  What they see is what lies
below such a key, and no more: a cycle that no root leads to is never entered, and neither is anything
that only such cycles lead to.

* `exists_cycle_above` — a node that no root leads to lies below a cycle that no root leads to;
* `SearchesRoots` — what the two searches have in common, so that the rest is said once;
* `order_levels_complete_iff` — the searches account for all keys exactly if the graph has no cycle at
  all, or has one below a root.
-/

namespace BuildMeta.Digraph

open Relation

variable {g : Digraph} {n : String} {x : Except Failure (List String)}

/-! ## Nodes that no root leads to -/

/-- Going back along edges from a node that no root leads to does not end, so it meets a cycle.  The
    relation is cut down to the edges above the node: a source of it has no predecessor at all. -/
theorem exists_cycle_above (hn : n ∈ g.nodes) (hroot : ¬ g.ReachFrom g.rootNodes n) :
    ∃ c, g.OnCycle c ∧ g.Reach c n ∧ ¬ g.ReachFrom g.rootNodes c := by
  let above : String → String → Prop := fun a b => g.Edge a b ∧ g.Reach b n
  have hedge : ∀ a b, above a b → g.Edge a b := fun _ _ h => h.1
  by_cases hcyc : ∃ c, TransGen above c c
  · obtain ⟨c, hc⟩ := hcyc
    obtain ⟨_, _, _, hreach⟩ := TransGen.tail'_iff.mp hc
    refine ⟨c, TransGen.mono hedge _ _ hc, hreach, ?_⟩
    rintro ⟨r, hr, hrc⟩
    exact hroot ⟨r, hr, ReflTransGen.trans hrc hreach⟩
  · refine absurd ?_ hroot
    obtain ⟨r, hrn, hsource⟩ := exists_source_of_acyclic g.keys (fun _ _ h => h.1.mem_keys)
      (fun c hc => hcyc ⟨c, hc⟩) n
    have hreach : g.Reach r n := ReflTransGen.mono hedge _ _ hrn
    have hnobody : ∀ m, ¬ g.Edge m r := fun m hm => hsource m ⟨hm, hreach⟩
    have hr : r ∈ g.nodes := by
      rcases ReflTransGen.cases_head hreach with rfl | ⟨c, hrc, _⟩
      · exact hn
      · exact Edge.mem_nodes_left hrc
    have hkey : r ∈ g.keys := (mem_nodes.mp hr).resolve_right fun ⟨m, hm⟩ => hnobody m hm
    exact ⟨r, mem_rootNodes.mpr ⟨hkey, hnobody⟩, hreach⟩

/-! ## What the searches have in common -/

/-- A search finds the nodes below the roots, or fails because there is a cycle below them. -/
def SearchesRoots (g : Digraph) (x : Except Failure (List String)) : Prop :=
  (∃ found, x = .ok found ∧ (∀ n, n ∈ found ↔ g.ReachFrom g.rootNodes n) ∧
    ¬ g.CycleBelow g.rootNodes) ∨
  (∃ p, x = .error (.cycle p)) ∧ g.CycleBelow g.rootNodes

theorem searchesRoots_order (g : Digraph) : g.SearchesRoots g.order := by
  rcases orderFrom_settles g g.rootNodes with ⟨order, hout, ho, hmem⟩ | hfail
  · refine Or.inl ⟨order, hout, hmem, ho.not_cycleBelow fun r hr => ?_⟩
    exact (hmem r).mpr (reachFrom_of_mem hr)
  · exact Or.inr hfail

theorem searchesRoots_levels (g : Digraph) : g.SearchesRoots (g.levels.map List.flatten) := by
  unfold levels
  rcases levelsFrom_settles g g.rootNodes with ⟨_, _, _, hf, hout⟩ | ⟨⟨p, _, hfail⟩, hcyc⟩
  · rw [hout]
    exact Or.inl ⟨_, rfl, fun _ => hf.mem_flatten_iff, hf.not_cycleBelow⟩
  · rw [hfail]
    exact Or.inr ⟨⟨p, rfl⟩, hcyc⟩

/-- A search accounts for all keys: it finds them or fails with a cycle. -/
def AccountsForKeys (g : Digraph) (x : Except Failure (List String)) : Prop :=
  (∃ p, x = .error (.cycle p)) ∨ ∃ found, x = .ok found ∧ ∀ n ∈ g.keys, n ∈ found

/-- **Starting at the roots misses exactly the cycles that lie below none.** -/
theorem SearchesRoots.accountsForKeys_iff (h : g.SearchesRoots x) :
    g.AccountsForKeys x ↔ g.Acyclic ∨ g.CycleBelow g.rootNodes := by
  rcases h with ⟨found, rfl, hmem, hno⟩ | ⟨⟨p, rfl⟩, hcyc⟩
  · constructor
    · rintro (⟨p, hp⟩ | ⟨_, hout, hkeys⟩)
      · cases hp
      · cases hout
        -- A node on a cycle is a key, so its cycle would lie below a root.
        refine Or.inl fun n hn => hno ⟨n, ?_, hn⟩
        obtain ⟨c, hedge, _⟩ := TransGen.head'_iff.mp hn
        exact (hmem n).mp (hkeys n (Edge.mem_keys hedge))
    · intro hcase
      have hacyc := hcase.resolve_right hno
      refine Or.inr ⟨found, rfl, fun n hn => ?_⟩
      rw [hmem, reachFrom_rootNodes hacyc]
      exact mem_nodes.mpr (Or.inl hn)
  · exact ⟨fun _ => Or.inr hcyc, fun _ => Or.inl ⟨p, rfl⟩⟩

/-- What a search leaves out lies below a cycle that it leaves out as well. -/
theorem SearchesRoots.exists_cycle_left_out (h : g.SearchesRoots x) {found : List String}
    (hout : x = .ok found) (hn : n ∈ g.keys) (hnot : n ∉ found) :
    ∃ c ∈ g.keys, c ∉ found ∧ g.OnCycle c ∧ g.Reach c n := by
  rcases h with ⟨_, rfl, hmem, _⟩ | ⟨⟨p, rfl⟩, _⟩
  · cases hout
    obtain ⟨c, hcyc, hreach, hroot⟩ :=
      exists_cycle_above (mem_nodes.mpr (Or.inl hn)) ((hmem n).not.mp hnot)
    obtain ⟨_, hedge, _⟩ := TransGen.head'_iff.mp hcyc
    exact ⟨c, Edge.mem_keys hedge, (hmem c).not.mpr hroot, hcyc, hreach⟩
  · cases hout

/-! ## Order and levels without given roots -/

/-- **Order and levels account for all keys exactly if there is no cycle, or one below a root.**  In any
    other graph they succeed without the cycles and what lies below them: a key that is left out lies
    below a cycle that is left out. -/
theorem order_levels_complete_iff (g : Digraph) :
    (g.AccountsForKeys g.order ↔ g.Acyclic ∨ g.CycleBelow g.rootNodes) ∧
    (g.AccountsForKeys (g.levels.map List.flatten) ↔ g.Acyclic ∨ g.CycleBelow g.rootNodes) ∧
    (∀ order, g.order = .ok order → ∀ n ∈ g.keys, n ∉ order →
      ∃ c ∈ g.keys, c ∉ order ∧ g.OnCycle c ∧ g.Reach c n) ∧
    ∀ levels, g.levels = .ok levels → ∀ n ∈ g.keys, n ∉ levels.flatten →
      ∃ c ∈ g.keys, c ∉ levels.flatten ∧ g.OnCycle c ∧ g.Reach c n := by
  have horder := searchesRoots_order g
  have hlevels := searchesRoots_levels g
  refine ⟨horder.accountsForKeys_iff, hlevels.accountsForKeys_iff, ?_, ?_⟩
  · intro order hout n hn hnot
    exact horder.exists_cycle_left_out hout hn hnot
  · intro levels hout n hn hnot
    exact hlevels.exists_cycle_left_out (by rw [hout]; rfl) hn hnot

/-- Two nodes in a ring beside a third one: the searches succeed and do not show the ring. -/
theorem order_levels_leave_out_ring :
    let g : Digraph := .ofList [("a", ["b"]), ("b", ["a"]), ("c", [])]
    g.order = .ok ["c"] ∧ g.levels = .ok [["c"]] ∧
      ¬ g.AccountsForKeys g.order ∧ ¬ g.AccountsForKeys (g.levels.map List.flatten) := by
  intro g
  have horder : g.order = .ok ["c"] := by cbv
  have hlevels : g.levels = .ok [["c"]] := by cbv
  have hkey : "a" ∈ g.keys := by decide
  refine ⟨horder, hlevels, ?_, ?_⟩
  · rw [horder]
    rintro (⟨p, hp⟩ | ⟨found, hout, hkeys⟩)
    · cases hp
    · cases hout
      exact absurd (hkeys "a" hkey) (by decide)
  · rw [hlevels]
    rintro (⟨p, hp⟩ | ⟨found, hout, hkeys⟩)
    · cases hp
    · cases hout
      exact absurd (hkeys "a" hkey) (by decide)

end BuildMeta.Digraph
