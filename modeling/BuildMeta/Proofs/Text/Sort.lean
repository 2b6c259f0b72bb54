import BuildMeta.Text.Cut
import Mathlib.Data.String.Basic
import Mathlib.Data.List.Sort

/-!
# `Proofs.Text.Sort` — sorted texts

Sorting by code points keeps the members, and its result depends on the collection only: two lists
that hold the same texts equally often are sorted into the same list.
-/

namespace BuildMeta.Text

theorem sort_perm (xs : List String) : (sort xs).Perm xs := List.mergeSort_perm xs _

@[simp] theorem mem_sort {xs : List String} {x : String} : x ∈ sort xs ↔ x ∈ xs :=
  (sort_perm xs).mem_iff

@[simp] theorem mem_sortedSet {xs : List String} {x : String} : x ∈ sortedSet xs ↔ x ∈ xs := by
  rw [sortedSet, mem_sort, List.mem_eraseDups]

theorem nodup_sort {xs : List String} : (sort xs).Nodup ↔ xs.Nodup := (sort_perm xs).nodup_iff

/-- Sorting sorts, in code point order. -/
theorem pairwise_sort (xs : List String) : (sort xs).Pairwise (· ≤ ·) := by
  have htrans : ∀ a b c : String, decide (a ≤ b) → decide (b ≤ c) → decide (a ≤ c) := by
    intro a b c hab hbc
    rw [decide_eq_true_eq] at hab hbc ⊢
    exact le_trans hab hbc
  have htotal : ∀ a b : String, decide (a ≤ b) || decide (b ≤ a) := by
    intro a b
    rw [Bool.or_eq_true, decide_eq_true_eq, decide_eq_true_eq]
    exact le_total a b
  exact (List.pairwise_mergeSort htrans htotal xs).imp fun hab => of_decide_eq_true hab

/-- **Sorting forgets the order.** -/
theorem sort_eq_of_perm {xs ys : List String} (h : xs.Perm ys) : sort xs = sort ys := by
  have hperm : (sort xs).Perm (sort ys) := ((sort_perm xs).trans h).trans (sort_perm ys).symm
  exact hperm.eq_of_pairwise' (pairwise_sort xs) (pairwise_sort ys)

/-- Dropping repetitions leaves no member twice. -/
theorem nodup_eraseDups (xs : List String) : xs.eraseDups.Nodup := by
  induction hlen : xs.length using Nat.strong_induction_on generalizing xs with
  | _ len ih =>
    cases xs with
    | nil => exact List.nodup_nil
    | cons x rest =>
      rw [List.eraseDups_cons, List.nodup_cons]
      have hshort : (rest.filter fun y => !y == x).length < len := by
        have := List.length_filter_le (fun y => !y == x) rest
        rw [List.length_cons] at hlen
        omega
      refine ⟨?_, ih _ hshort _ rfl⟩
      rw [List.mem_eraseDups, List.mem_filter]
      rintro ⟨_, hne⟩
      simp at hne

/-- A set in order depends on its members only. -/
theorem sortedSet_eq_of_mem_iff {xs ys : List String} (h : ∀ x, x ∈ xs ↔ x ∈ ys) :
    sortedSet xs = sortedSet ys := by
  refine sort_eq_of_perm ((List.perm_ext_iff_of_nodup (nodup_eraseDups xs) (nodup_eraseDups ys)).mpr ?_)
  intro x
  rw [List.mem_eraseDups, List.mem_eraseDups, h x]

end BuildMeta.Text
