import BuildMeta.Text.Case
import Mathlib.Data.List.Basic

/-!
# `Proofs.Text.Lower` — lower case

Lower case is idempotent (`lower_lower`): whatever it writes, it leaves alone, also the two letters
of a dotted capital i and both forms of sigma.  It writes no blank and no hyphen in place of a
letter (`mem_lower`).  The letters come from a table of runs, so both rest on a check that no image
of a run lies in a run.
-/

namespace BuildMeta.Text

/-! ## Runs of letters -/

namespace CaseRun

/-- The code points of a run. -/
def Holds (r : CaseRun) (n : Nat) : Prop := r.first ≤ n ∧ n ≤ r.last ∧ r.step ∣ n - r.first

/-- The image of a code point of a run. -/
def shifted (r : CaseRun) (n : Nat) : Nat := (Int.ofNat n + r.shift).toNat

theorem exists_of_image? {runs : List CaseRun} {n m : Nat} (h : image? runs n = some m) :
    ∃ r ∈ runs, r.Holds n ∧ m = r.shifted n := by
  obtain ⟨r, hfind, rfl⟩ := Option.map_eq_some_iff.mp h
  have hholds := List.find?_some hfind
  simp only [Bool.and_eq_true, decide_eq_true_eq, beq_iff_eq] at hholds
  exact ⟨r, List.mem_of_find?_eq_some hfind,
    ⟨hholds.1.1, hholds.1.2, Nat.dvd_of_mod_eq_zero hholds.2⟩, rfl⟩

theorem image?_eq_none {runs : List CaseRun} {n : Nat} (h : ∀ r ∈ runs, ¬ r.Holds n) :
    image? runs n = none := by
  unfold image?
  rw [Option.map_eq_none_iff, List.find?_eq_none]
  intro r hr hholds
  simp only [Bool.and_eq_true, decide_eq_true_eq, beq_iff_eq] at hholds
  exact h r hr ⟨hholds.1.1, hholds.1.2, Nat.dvd_of_mod_eq_zero hholds.2⟩

/-- Whether the images of `r` can be seen to lie outside `t`: before it, after it, or all at odd
    distances from its members, which are at even ones. -/
def clearOf (r t : CaseRun) : Bool :=
  Nat.ble (r.shifted r.last + 1) t.first || Nat.ble (t.last + 1) (r.shifted r.first) ||
    (t.step % 2 == 0 && (r.step % 2 == 0 || r.first == r.last) && (r.shifted r.first + t.first) % 2 == 1)

/-- A run of letters is not shifted into a run that it is clear of. -/
theorem not_holds_shifted {r t : CaseRun} {n : Nat} (hclear : r.clearOf t = true)
    (hpos : 0 < r.shifted r.first) (hn : r.Holds n) : ¬ t.Holds (r.shifted n) := by
  obtain ⟨hfirst, hlast, hstep⟩ := hn
  rintro ⟨hfirst', hlast', hstep'⟩
  simp only [clearOf, Bool.or_eq_true, Bool.and_eq_true, Nat.ble_eq, beq_iff_eq] at hclear
  simp only [shifted, Int.ofNat_eq_natCast] at *
  rcases hclear with (hbefore | hafter) | ⟨⟨heven', heven⟩, hodd⟩
  · omega
  · omega
  · have hdist : 2 ∣ n - r.first := by
      rcases heven with heven | hone
      · exact Nat.dvd_trans (Nat.dvd_of_mod_eq_zero heven) hstep
      · exact ⟨0, by omega⟩
    have hdist' := Nat.dvd_trans (Nat.dvd_of_mod_eq_zero heven') hstep'
    omega

end CaseRun

/-- Code points that no letter may have as its image: all up to the capital letters, blanks, the
    dotted capital i, the capital sigma, and surrogates. -/
def reservedRuns : List CaseRun :=
  [⟨0, 96, 1, 0⟩, ⟨128, 160, 1, 0⟩, ⟨304, 304, 1, 0⟩, ⟨931, 931, 1, 0⟩, ⟨5760, 5760, 1, 0⟩,
    ⟨8192, 8303, 1, 0⟩,
   ⟨12288, 12288, 1, 0⟩, ⟨55296, 57343, 1, 0⟩]

set_option maxRecDepth 4000 in
theorem lowerRuns_clear :
    (lowerRuns.all fun r => (reservedRuns ++ lowerRuns).all fun t => r.clearOf t) = true := by
  decide +kernel

theorem lowerRuns_bound : (lowerRuns.all fun r => Nat.ble (r.shifted r.last) 0x10FFFF) = true := by
  decide +kernel

/-- The images of letters are neither reserved nor letters with an image. -/
theorem not_holds_image {r t : CaseRun} {n : Nat} (hr : r ∈ lowerRuns)
    (ht : t ∈ reservedRuns ++ lowerRuns) (hn : r.Holds n) : ¬ t.Holds (r.shifted n) := by
  have hclear := List.all_eq_true.mp lowerRuns_clear r hr
  have hzero := List.all_eq_true.mp hclear ⟨0, 96, 1, 0⟩ List.mem_cons_self
  refine CaseRun.not_holds_shifted (List.all_eq_true.mp hclear t ht) ?_ hn
  simp only [CaseRun.clearOf, Bool.or_eq_true, Bool.and_eq_true, Nat.ble_eq, beq_iff_eq] at hzero
  omega

/-! ## Characters -/

/-- Characters that lower case leaves alone, whatever stands around them. -/
def Settled (c : Char) : Prop := ∀ before after, lowerChar before c after = [c]

/-- Characters that are no blanks and no hyphens. -/
def Inner (c : Char) : Prop := isBlank c = false ∧ c ≠ '-'

theorem toLower_ascii : ∀ n < 128, (Char.ofNat n).toLower.toNat < 128 ∧
    (Char.ofNat n).toLower.toLower = (Char.ofNat n).toLower ∧
    (90 < n → (Char.ofNat n).toLower = Char.ofNat n) ∧
    ((Char.ofNat n).toLower = Char.ofNat n ∨
      isBlank (Char.ofNat n).toLower = false ∧ (Char.ofNat n).toLower ≠ '-') := by
  decide +kernel

theorem settled_of_image?_eq_none {c : Char} (hascii : 128 ≤ c.toNat) (hdotted : c.toNat ≠ 0x130)
    (hsigma : c.toNat ≠ 0x3A3) (hruns : CaseRun.image? lowerRuns c.toNat = none) : Settled c := by
  intro before after
  rw [lowerChar, if_neg (Nat.not_lt.mpr hascii), if_neg (by simpa using hdotted),
    if_neg (by simpa using hsigma), hruns]

theorem reservedRuns_step : ∀ t ∈ reservedRuns, t.step = 1 := by simp [reservedRuns]

/-- The image of a letter is settled, and no blank and no hyphen. -/
theorem settled_image {r : CaseRun} {n : Nat} (hr : r ∈ lowerRuns) (hn : r.Holds n) :
    Settled (Char.ofNat (r.shifted n)) ∧ Inner (Char.ofNat (r.shifted n)) := by
  have hfree : ∀ t ∈ reservedRuns, r.shifted n < t.first ∨ t.last < r.shifted n := by
    intro t ht
    by_contra hin
    refine not_holds_image hr (List.mem_append_left _ ht) hn ⟨by omega, by omega, ?_⟩
    rw [reservedRuns_step t ht]
    exact Nat.one_dvd _
  have hruns : CaseRun.image? lowerRuns (r.shifted n) = none :=
    CaseRun.image?_eq_none fun t ht => not_holds_image hr (List.mem_append_right _ ht) hn
  simp only [reservedRuns, List.forall_mem_cons] at hfree
  have hbound : r.shifted n ≤ 0x10FFFF := by
    have hlast := Nat.le_of_ble_eq_true (List.all_eq_true.mp lowerRuns_bound r hr)
    obtain ⟨-, hn, -⟩ := hn
    simp only [CaseRun.shifted, Int.ofNat_eq_natCast] at *
    omega
  have hcode : (Char.ofNat (r.shifted n)).toNat = r.shifted n := by
    unfold Char.ofNat
    rw [dif_pos (by unfold Nat.isValidChar; omega)]
    rfl
  refine ⟨?_, ?_, ?_⟩
  · by_cases hascii : r.shifted n < 128
    · obtain ⟨-, -, hsame, -⟩ := toLower_ascii _ hascii
      intro before after
      rw [lowerChar, hcode, if_pos hascii, hsame (by omega)]
    · refine settled_of_image?_eq_none ?_ ?_ ?_ ?_
      · omega
      · omega
      · omega
      · rw [hcode, hruns]
  · rw [Bool.eq_false_iff]
    unfold isBlank
    rw [hcode]
    simp only [ne_eq, Bool.or_eq_true, Bool.and_eq_true, decide_eq_true_eq, beq_iff_eq]
    omega
  · intro e
    have hhyphen := congrArg Char.toNat e
    rw [hcode] at hhyphen
    simp at hhyphen
    omega

/-- Lower case writes settled characters.  One that does not stand in the text is no blank and no
    hyphen. -/
theorem mem_lowerChar {before after : List Char} {c d : Char} (h : d ∈ lowerChar before c after) :
    Settled d ∧ (d = c ∨ Inner d) := by
  unfold lowerChar at h
  split at h
  · next hascii =>
    obtain ⟨hcode, hsame, -, hkeep⟩ := toLower_ascii c.toNat hascii
    rw [Char.ofNat_toNat] at hcode hsame hkeep
    obtain rfl := List.mem_singleton.mp h
    refine ⟨fun before after => ?_, hkeep⟩
    rw [lowerChar, if_pos hcode, hsame]
  · next hascii =>
    split at h
    · -- The dotted capital i becomes an i and a dot above.
      rcases List.mem_pair.mp h with rfl | rfl
      · exact ⟨fun _ _ => rfl, Or.inr ⟨by decide, by decide⟩⟩
      · exact ⟨settled_of_image?_eq_none (by decide) (by decide) (by decide) (by decide +kernel),
          Or.inr ⟨by decide, by decide⟩⟩
    · next hdotted =>
      split at h
      · -- Both small sigmas are settled.
        split at h
        all_goals
          obtain rfl := List.mem_singleton.mp h
          exact ⟨settled_of_image?_eq_none (by decide) (by decide) (by decide) (by decide +kernel),
            Or.inr ⟨by decide, by decide⟩⟩
      · next hsigma =>
        split at h
        · next n hn =>
          obtain ⟨r, hr, hholds, rfl⟩ := CaseRun.exists_of_image? hn
          obtain rfl := List.mem_singleton.mp h
          exact ⟨(settled_image hr hholds).1, Or.inr (settled_image hr hholds).2⟩
        · next hnone =>
          obtain rfl := List.mem_singleton.mp h
          exact ⟨settled_of_image?_eq_none (by omega) (by simpa using hdotted)
            (by simpa using hsigma) hnone, Or.inl rfl⟩

theorem lowerChar_ne_nil (before : List Char) (c : Char) (after : List Char) :
    lowerChar before c after ≠ [] := by
  unfold lowerChar
  repeat' split
  all_goals exact List.cons_ne_nil _ _

/-! ## Texts -/

theorem lowerFrom_of_settled {s : List Char} (h : ∀ c ∈ s, Settled c) (before : List Char) :
    lowerFrom before s = s := by
  induction s generalizing before with
  | nil => rfl
  | cons c s ih =>
    rw [lowerFrom, h c List.mem_cons_self, ih fun d hd => h d (List.mem_cons_of_mem _ hd)]
    rfl

/-- Lower case is made of settled characters.  Those that are not of the text are neither blanks nor
    hyphens, so no part of a platform falls apart by it. -/
theorem mem_lowerFrom {before s : List Char} {d : Char} (h : d ∈ lowerFrom before s) :
    Settled d ∧ (d ∈ s ∨ Inner d) := by
  induction s generalizing before with
  | nil => cases h
  | cons c s ih =>
    rcases List.mem_append.mp h with h | h
    · obtain ⟨hsettled, hkeep⟩ := mem_lowerChar h
      exact ⟨hsettled, hkeep.imp (fun e => List.mem_cons.mpr (Or.inl e)) id⟩
    · obtain ⟨hsettled, hkeep⟩ := ih h
      exact ⟨hsettled, hkeep.imp (List.mem_cons_of_mem _) id⟩

/-- **Lower case is idempotent.** -/
theorem lower_lower (s : String) : lower (lower s) = lower s := by
  unfold lower
  rw [String.toList_ofList, lowerFrom_of_settled fun d hd => (mem_lowerFrom hd).1]

/-- Lower case adds no blanks and no hyphens. -/
theorem mem_lower {s : String} {d : Char} (h : d ∈ (lower s).toList) : d ∈ s.toList ∨ Inner d := by
  rw [lower, String.toList_ofList] at h
  exact (mem_lowerFrom h).2

/-- Lower case leaves something of what was something. -/
theorem lower_ne_empty {s : String} (h : s ≠ "") : lower s ≠ "" := by
  intro e
  have hlist : lowerFrom [] s.toList = [] := by
    rw [← String.toList_ofList (l := lowerFrom [] s.toList)]
    exact congrArg String.toList e
  cases hs : s.toList with
  | nil => exact h (String.toList_eq_nil_iff.mp hs)
  | cons c rest =>
    rw [hs, lowerFrom, List.append_eq_nil_iff] at hlist
    exact lowerChar_ne_nil _ _ _ hlist.1

end BuildMeta.Text
