import Mathlib.Logic.Relation
import Mathlib.Data.Fintype.Order
import Mathlib.Data.Set.Finite.Basic

/-!
# `Proofs.Cycle` — cycles of a relation

Two facts on which every walk along a relation rests: a point from which all chains end lies on no
cycle, and along a relation without cycles on finitely many points, going back always ends at a point
that has no predecessor.
-/

namespace BuildMeta

open Relation

variable {α : Type} {r : α → α → Prop}

theorem not_rel_self_of_acc {a : α} (h : Acc r a) : ¬ r a a := by
  induction h with
  | intro a _ ih => exact fun ha => ih a ha ha

/-- **A point from which all chains end lies on no cycle.** -/
theorem not_cycle_of_acc {a : α} (h : Acc (fun x y => r y x) a) : ¬ TransGen r a a := by
  intro hcyc
  have hback : TransGen (fun x y => r y x) a a := transGen_swap.mpr hcyc
  exact not_rel_self_of_acc h.transGen hback

/-- **Without cycles every point can be reached from a source.**  All predecessors are taken from the
    list, so a chain of predecessors that did not end would repeat a point. -/
theorem exists_source_of_acyclic (points : List α) (hpre : ∀ ⦃a b⦄, r a b → a ∈ points)
    (hacyc : ∀ a, ¬ TransGen r a a) (b : α) : ∃ a, ReflTransGen r a b ∧ ∀ c, ¬ r c a := by
  let back : {a // a ∈ points} → {a // a ∈ points} → Prop := fun x y => TransGen r x y
  have : Finite {a // a ∈ points} := (List.finite_toSet points).to_subtype
  have : IsTrans {a // a ∈ points} back := ⟨fun _ _ _ => TransGen.trans⟩
  have : Std.Irrefl back := ⟨fun x => hacyc x⟩
  have hwf : WellFounded back := Finite.wellFounded_of_trans_of_irrefl back
  have hmem : ∀ x : {a // a ∈ points}, ∃ a, ReflTransGen r a x ∧ ∀ c, ¬ r c a := by
    intro x
    induction x using hwf.induction with
    | _ x ih =>
      by_cases hx : ∃ c, r c x
      · obtain ⟨c, hc⟩ := hx
        obtain ⟨a, hac, hsource⟩ := ih ⟨c, hpre hc⟩ (TransGen.single hc)
        exact ⟨a, hac.tail hc, hsource⟩
      · exact ⟨x, ReflTransGen.refl, fun c hc => hx ⟨c, hc⟩⟩
  by_cases hb : ∃ c, r c b
  · obtain ⟨c, hc⟩ := hb
    obtain ⟨a, hac, hsource⟩ := hmem ⟨c, hpre hc⟩
    exact ⟨a, hac.tail hc, hsource⟩
  · exact ⟨b, ReflTransGen.refl, fun c hc => hb ⟨c, hc⟩⟩

end BuildMeta
