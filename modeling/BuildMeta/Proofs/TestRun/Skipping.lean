import BuildMeta.TestRun.Policy
import Mathlib.Data.List.Nodup
import Mathlib.Data.List.Perm.Subperm

/-!
# `Proofs.TestRun.Skipping` — which cases are passed over

Each ruling of a policy is about one case at most (`Datum.sameAtom_int_unique`), so no more cases
are skipped than there are rulings (`length_le_of_skips`), and the bounded search for the next case
always ends at one that is not skipped (`next_spec`).
-/

namespace BuildMeta

/-- The quotient of a number has a denominator to divide by. -/
theorem Binary64.den_pos {x : Binary64} {num : Int} {den : Nat} (h : x.quotient? = some (num, den)) :
    0 < den := by
  cases x with
  | finite negative mantissa exponent =>
    obtain ⟨f, hf, hpair⟩ := Option.map_eq_some_iff.mp h
    have hden : den = f.den := (congrArg Prod.snd hpair).symm
    rw [size?, Option.some.injEq, Fraction.divPow] at hf
    rw [hden, ← hf]
    split
    · exact Nat.mul_pos Nat.one_pos (Nat.pow_pos Nat.two_pos)
    · exact Nat.one_pos
  | infinite negative => cases h
  | nan => cases h

/-- A number equals one integer at most. -/
theorem Binary64.isInt_unique {x : Binary64} {m n : Int} (hm : x.isInt m = true)
    (hn : x.isInt n = true) :
    m = n := by
  unfold isInt isQuotient at hm hn
  cases hx : x.quotient? with
  | none =>
    rw [hx] at hm
    cases hm
  | some pair =>
    obtain ⟨num, den⟩ := pair
    have hden : (den : Int) ≠ 0 := by
      have hpos := den_pos hx
      omega
    rw [hx] at hm hn
    simp only [beq_iff_eq] at hm hn
    exact Int.eq_of_mul_eq_mul_right hden (hm.symm.trans hn)

/-- An atom equals one integer at most. -/
theorem Datum.sameAtom_int_unique {d : Datum} {m n : Int} (hm : d.sameAtom (.int m) = true)
    (hn : d.sameAtom (.int n) = true) : m = n := by
  cases d with
  | real x => exact Binary64.isInt_unique hm hn
  | int k => exact (beq_iff_eq.mp hm).symm.trans (beq_iff_eq.mp hn)
  | bool b => exact (beq_iff_eq.mp hm).symm.trans (beq_iff_eq.mp hn)
  | _ => cases hm

namespace TestRun.Policy

variable {p : Policy} {case n m : Nat}

/-- A skipped case has a ruling. -/
theorem exists_ruling (h : p.skips case = true) : ∃ r ∈ p.rulings, r.1.sameAtom (.int case) = true := by
  unfold skips skips? at h
  obtain ⟨r, hfind, _⟩ := Option.map_eq_some_iff.mp (beq_iff_eq.mp h)
  have hsame := List.find?_some hfind
  exact ⟨r, List.mem_reverse.mp (List.mem_of_find?_eq_some hfind), hsame⟩

/-- No more cases are skipped than there are rulings. -/
theorem length_le_of_skips {cases : List Nat} (hnodup : cases.Nodup)
    (h : ∀ n ∈ cases, p.skips n = true) :
    cases.length ≤ p.rulings.length := by
  have hchoice : ∀ n : {n // n ∈ cases}, ∃ r ∈ p.rulings, r.1.sameAtom (.int n.1) = true :=
    fun n => exists_ruling (h n.1 n.2)
  -- Different cases have different rulings, because an atom equals one integer at most.
  choose ruling hmem hsame using hchoice
  have hinjective : Function.Injective ruling := by
    intro n m hnm
    have hm := hsame m
    rw [← hnm] at hm
    have hint : (n.1 : Int) = m.1 := Datum.sameAtom_int_unique (hsame n) hm
    exact Subtype.ext (by omega)
  have hrulings : (cases.attach.map ruling).Nodup :=
    (List.nodup_attach.mpr hnodup).map hinjective
  have hsubset : cases.attach.map ruling ⊆ p.rulings := by
    intro r hr
    obtain ⟨n, _, rfl⟩ := List.mem_map.mp hr
    exact hmem n
  have hlength := (List.subperm_of_subset hrulings hsubset).length_le
  rwa [List.length_map, List.length_attach] at hlength

/-- The search passes over skipped cases up to one that is not skipped, or to its bound. -/
theorem passOver_spec (bound case : Nat) :
    ∃ count, p.passOver bound case = (List.range' case count, case + count) ∧
      (∀ n ∈ List.range' case count, p.skips n = true) ∧
      (count = bound ∨ p.skips (case + count) = false) := by
  induction bound generalizing case with
  | zero => exact ⟨0, rfl, by simp, Or.inl rfl⟩
  | succ bound ih =>
    cases hskip : p.skips case with
    | false => exact ⟨0, by simp [passOver, hskip], by simp, Or.inr hskip⟩
    | true =>
      obtain ⟨count, hcount, hall, hend⟩ := ih (case + 1)
      refine ⟨count + 1, ?_, ?_, ?_⟩
      · rw [passOver, if_pos hskip, hcount, List.range'_succ, Nat.add_right_comm]
        rfl
      · rw [List.range'_succ]
        exact List.forall_mem_cons.mpr ⟨hskip, hall⟩
      · rw [Nat.add_right_comm case 1 count] at hend
        exact hend.imp (congrArg (· + 1)) id

/-- **The next case is the first one that is not skipped.** -/
theorem next_spec (p : Policy) (case : Nat) :
    ∃ count, p.next case = (List.range' case count, case + count) ∧
      (∀ n ∈ List.range' case count, p.skips n = true) ∧ p.skips (case + count) = false := by
  obtain ⟨count, hnext, hall, hend⟩ := p.passOver_spec p.rulings.length case
  refine ⟨count, hnext, hall, ?_⟩
  rw [← Bool.not_eq_true]
  intro hskip
  -- One more case would be skipped than there are rulings.
  have hmore : ∀ n ∈ List.range' case (count + 1), p.skips n = true := by
    intro n hn
    rw [List.range'_1_concat, List.mem_append, List.mem_singleton] at hn
    rcases hn with hn | rfl
    · exact hall n hn
    · exact hskip
  have hlength := length_le_of_skips List.nodup_range' hmore
  have hbound : count = p.rulings.length := hend.resolve_right (by simp [hskip])
  rw [List.length_range'] at hlength
  omega

end TestRun.Policy

end BuildMeta
