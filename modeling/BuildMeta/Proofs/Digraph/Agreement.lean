import BuildMeta.Proofs.Digraph.LevelOrder

/-!
# `Proofs.Digraph.Agreement` — graphs that agree below a node

What lies below a node depends on the edges below it alone.  Two graphs that have the same edges there
(`AgreeBelow`) have the same paths and longest paths there, and so list the nodes below the node in the
same order (`LevelsBelow.eq_of_agree`), however different they are elsewhere.
-/

namespace BuildMeta.Digraph

open Relation

variable {g g' : Digraph} {m n : String} {k : Nat}

/-- Two graphs have the same edges at a node and at all nodes below it. -/
def AgreeBelow (g g' : Digraph) (n : String) : Prop :=
  ∀ m, g.Reach n m → ∀ child, g.Edge m child ↔ g'.Edge m child

theorem AgreeBelow.of_reach (h : AgreeBelow g g' n) (hm : g.Reach n m) : AgreeBelow g g' m :=
  fun k hk => h k (hm.trans hk)

/-- Graphs that agree below a node have the same paths from it. -/
theorem AgreeBelow.reach_iff (h : AgreeBelow g g' n) : g.Reach n m ↔ g'.Reach n m := by
  constructor
  · intro hm
    induction hm with
    | refl => exact ReflTransGen.refl
    | tail hreach hedge ih => exact ih.tail ((h _ hreach _).mp hedge)
  · -- Each node on a path of the other graph is reached in this one as well, so the edges there agree.
    intro hm
    induction hm with
    | refl => exact ReflTransGen.refl
    | tail _ hedge ih => exact ih.tail ((h _ ih _).mpr hedge)

theorem AgreeBelow.symm (h : AgreeBelow g g' n) : AgreeBelow g' g n :=
  fun m hm child => (h m (h.reach_iff.mpr hm) child).symm

theorem AgreeBelow.below_iff (h : AgreeBelow g g' n) :
    TransGen g.Edge n m ↔ TransGen g'.Edge n m := by
  rw [TransGen.head'_iff, TransGen.head'_iff]
  refine exists_congr fun child => ?_
  rw [← h n ReflTransGen.refl child]
  exact and_congr_right fun hedge => (h.of_reach (ReflTransGen.single hedge)).reach_iff

theorem AgreeBelow.pathOf (h : AgreeBelow g g' n) (hn : g.PathOf n k) : g'.PathOf n k := by
  induction hn with
  | stop n => exact .stop n
  | step hedge _ ih =>
    exact .step ((h _ ReflTransGen.refl _).mp hedge) (ih (h.of_reach (ReflTransGen.single hedge)))

theorem AgreeBelow.longest (h : AgreeBelow g g' n) (hn : g.Longest n k) : g'.Longest n k :=
  ⟨h.pathOf hn.path, fun _ hj => hn.le (h.symm.pathOf hj)⟩

theorem AgreeBelow.levelBefore (h : AgreeBelow g g' n) {a b : String} (ha : g.Reach n a)
    (hb : g.Reach n b) (hab : g.LevelBefore a b) : g'.LevelBefore a b := by
  obtain ⟨i, j, hi, hj, hlt⟩ := hab
  exact ⟨i, j, (h.of_reach ha).longest hi, (h.of_reach hb).longest hj, hlt⟩

/-- **Where two graphs agree, they list the nodes below a node in the same order.** -/
theorem LevelsBelow.eq_of_agree {below below' : List String} (h : g.LevelsBelow n below)
    (h' : g'.LevelsBelow n below') (hagree : AgreeBelow g g' n) : below = below' := by
  have hreach : ∀ a ∈ below, g.Reach n a := fun a ha => ((h.mem_iff a).mp ha).to_reflTransGen
  have horder : below.Pairwise g'.LevelBefore :=
    h.levelOrder.imp_of_mem fun ha hb => hagree.levelBefore (hreach _ ha) (hreach _ hb)
  refine eq_of_levelOrder horder h'.levelOrder fun a => ?_
  rw [h.mem_iff, h'.mem_iff, hagree.below_iff]

end BuildMeta.Digraph
