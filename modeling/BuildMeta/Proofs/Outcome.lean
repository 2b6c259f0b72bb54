import BuildMeta.Notice
import Mathlib.Data.List.Forall2

/-!
# `Proofs.Outcome` — sequences of steps that may fail

How success and failure of a sequence of steps come from those of its steps: inversion lemmas for
success (`mem_mapM_iff`, `exists_of_mapM`, `mapM_eq_ok_iff`), and for failures the one kind of them
that is followed through whole programs, that of a cycle (`Cycleless`).
-/

namespace BuildMeta

variable {α β : Type}

namespace Failure

/-- A step on all members of a list gives each of them a result, and nothing else. -/
theorem mem_mapM_iff {f : α → Except Failure β} {xs : List α} {ys : List β} (h : xs.mapM f = .ok ys)
    {y : β} : y ∈ ys ↔ ∃ x ∈ xs, f x = .ok y := by
  induction xs generalizing ys with
  | nil =>
    rw [List.mapM_nil] at h
    cases h
    simp
  | cons x rest ih =>
    rw [List.mapM_cons] at h
    obtain ⟨z, hz, hrest⟩ := bind_eq_ok_iff.mp h
    obtain ⟨zs, hzs, hout⟩ := bind_eq_ok_iff.mp hrest
    cases hout
    simp only [List.mem_cons, ih hzs, exists_eq_or_imp, hz, Except.ok.injEq]
    exact or_congr_left eq_comm

/-- If a list is mapped, each of its members is. -/
theorem exists_of_mapM {f : α → Except Failure β} {xs : List α} {ys : List β}
    (h : xs.mapM f = .ok ys) {x : α} (hx : x ∈ xs) : ∃ y, f x = .ok y := by
  induction xs generalizing ys with
  | nil => exact absurd hx List.not_mem_nil
  | cons z rest ih =>
    rw [List.mapM_cons] at h
    obtain ⟨y, hy, hrest⟩ := bind_eq_ok_iff.mp h
    obtain ⟨ys', hys, _⟩ := bind_eq_ok_iff.mp hrest
    rcases List.mem_cons.mp hx with rfl | hx'
    · exact ⟨y, hy⟩
    · exact ih hys hx'

/-- A step succeeds on a list, if it succeeds member by member. -/
theorem mapM_eq_ok_iff {f : α → Except Failure β} {xs : List α} {ys : List β} :
    xs.mapM f = .ok ys ↔ List.Forall₂ (fun x y => f x = .ok y) xs ys := by
  induction xs generalizing ys with
  | nil =>
    rw [List.mapM_nil, List.forall₂_nil_left_iff]
    constructor
    · rintro ⟨⟩
      rfl
    · rintro rfl
      rfl
  | cons x rest ih =>
    rw [List.mapM_cons, bind_eq_ok_iff, List.forall₂_cons_left_iff]
    constructor
    · rintro ⟨y, hy, hrest⟩
      obtain ⟨ys', hys, hout⟩ := bind_eq_ok_iff.mp hrest
      cases hout
      exact ⟨y, ys', hy, ih.mp hys, rfl⟩
    · rintro ⟨y, ys', hy, hys, rfl⟩
      refine ⟨y, hy, ?_⟩
      rw [ih.mpr hys, ok_bind]
      rfl

theorem mapM_congr {f g : α → Except Failure β} {xs : List α} (h : ∀ x ∈ xs, f x = g x) :
    xs.mapM f = xs.mapM g := by
  induction xs with
  | nil => rfl
  | cons x xs ih =>
    rw [List.mapM_cons, List.mapM_cons, h x List.mem_cons_self,
      ih fun y hy => h y (List.mem_cons_of_mem _ hy)]

/-- A step that succeeds on every member of a list succeeds on the list. -/
theorem exists_mapM {f : α → Except Failure β} {xs : List α} (h : ∀ x ∈ xs, ∃ y, f x = .ok y) :
    ∃ ys, xs.mapM f = .ok ys := by
  induction xs with
  | nil => exact ⟨[], rfl⟩
  | cons x rest ih =>
    obtain ⟨y, hy⟩ := h x List.mem_cons_self
    obtain ⟨ys, hys⟩ := ih fun z hz => h z (List.mem_cons_of_mem _ hz)
    refine ⟨y :: ys, ?_⟩
    rw [List.mapM_cons, hy, ok_bind, hys, ok_bind]
    rfl

theorem exists_of_isOk {x : Except Failure α} (h : x.isOk = true) : ∃ a, x = .ok a := by
  cases x with
  | ok a => exact ⟨a, rfl⟩
  | error e => cases h

/-- A result that is not the failure to get past a cycle. -/
def Cycleless (x : Except Failure α) : Prop := ∀ p, x ≠ .error (.cycle p)

theorem Cycleless.ok (a : α) : Cycleless (.ok a) := by
  intro p h
  cases h

theorem Cycleless.of_error {e : Failure} (h : ∀ p, e ≠ .cycle p) :
    Cycleless (.error e : Except Failure α) := by
  intro p hp
  cases hp
  exact h p rfl

theorem Cycleless.bind {x : Except Failure α} {f : α → Except Failure β} (hx : Cycleless x)
    (hf : ∀ a, x = .ok a → Cycleless (f a)) : Cycleless (x >>= f) := by
  cases x with
  | ok a => exact hf a rfl
  | error e =>
    intro p h
    cases h
    exact hx p rfl

theorem Cycleless.mapM {f : α → Except Failure β} (hf : ∀ a, Cycleless (f a)) (xs : List α) :
    Cycleless (xs.mapM f) := by
  induction xs with
  | nil => exact Cycleless.ok []
  | cons x rest ih =>
    rw [List.mapM_cons]
    exact (hf x).bind fun y _ => ih.bind fun ys _ => Cycleless.ok (y :: ys)

end Failure

namespace Logged

/-- After a first step that succeeds, the second decides. -/
theorem exists_bind {x : Logged α} {f : α → Logged β} {P : β → Prop} {a : α} (h : x.outcome = .ok a)
    (hrest : ∃ b, (f a).outcome = .ok b ∧ P b) : ∃ b, (x >>= f).outcome = .ok b ∧ P b := by
  rwa [outcome_bind, h, Failure.ok_bind]

theorem cycleless_bind {x : Logged α} {f : α → Logged β} (hx : Failure.Cycleless x.outcome)
    (hf : ∀ a, x.outcome = .ok a → Failure.Cycleless (f a).outcome) :
    Failure.Cycleless (x >>= f).outcome := by
  rw [outcome_bind]
  exact hx.bind hf

@[simp] theorem outcome_tellAll (ns : List Notice) : (tellAll ns).outcome = .ok () := rfl

/-- A lifted step has its own outcome. -/
@[simp] theorem outcome_lift (x : Except Failure α) :
    (liftM x : Logged α).outcome = x := rfl

/-- A lifted result is a result. -/
@[simp] theorem lift_ok (a : α) : (liftM (.ok a : Except Failure α) : Logged α) = pure a := rfl

end Logged

end BuildMeta
