import BuildMeta.Text.Integer
import BuildMeta.Proofs.Text.Plain

/-!
# `Proofs.Text.Digits` — reading plain digits

A text of the digits `0` to `9` is read as the number that they write (`integer?_of_digits`).  Its
first digit bounds the number from below, and ten times as much if it is not the only one.
-/

namespace BuildMeta.Text

/-- A text of digits that is short enough to be read as a number. -/
structure Digits (s : String) : Prop where
  ne_empty : s ≠ ""
  digit : ∀ c ∈ s.toList, c.isDigit = true
  length_le : s.toList.length ≤ maxIntegerDigits

instance : DecidablePred Digits := fun s =>
  decidable_of_iff (s ≠ "" ∧ (∀ c ∈ s.toList, c.isDigit = true) ∧ s.toList.length ≤ maxIntegerDigits)
    ⟨fun ⟨h₁, h₂, h₃⟩ => ⟨h₁, h₂, h₃⟩, fun ⟨h₁, h₂, h₃⟩ => ⟨h₁, h₂, h₃⟩⟩

/-- The value of a digit. -/
def digitValue (c : Char) : Nat := c.toNat - '0'.toNat

/-- The number that digits write. -/
def number (s : String) : Nat := ofDigits 10 (s.toList.map digitValue)

section

variable {c d : Char} {cs : List Char} {s : String}

/-! ## Digits -/

theorem isDigit_iff : c.isDigit = true ↔ 48 ≤ c.toNat ∧ c.toNat ≤ 57 := by
  simp [Char.isDigit, UInt32.le_iff_toNat_le]

theorem lt_iff_digitValue_lt (hc : c.isDigit = true) (hd : d.isDigit = true) :
    c < d ↔ digitValue c < digitValue d := by
  rw [isDigit_iff] at hc hd
  rw [Char.lt_def, UInt32.lt_iff_toNat_lt]
  show c.toNat < d.toNat ↔ c.toNat - 48 < d.toNat - 48
  omega

theorem eq_iff_digitValue_eq (hc : c.isDigit = true) (hd : d.isDigit = true) :
    c = d ↔ digitValue c = digitValue d := by
  rw [isDigit_iff] at hc hd
  rw [← Char.toNat_inj]
  show c.toNat = d.toNat ↔ c.toNat - 48 = d.toNat - 48
  omega

/-- A decimal digit has its value also in the reader for any base. -/
theorem digitIn?_of_isDigit (h : c.isDigit = true) : digitIn? 10 c = some (digitValue c) := by
  have hrange := isDigit_iff.mp h
  have hlower : ¬ ('a' ≤ c ∧ c ≤ 'f') := by
    simp only [Char.le_def, UInt32.le_iff_toNat_le]
    intro hletter
    have : 97 ≤ c.toNat := hletter.1
    omega
  have hupper : ¬ ('A' ≤ c ∧ c ≤ 'F') := by
    simp only [Char.le_def, UInt32.le_iff_toNat_le]
    intro hletter
    have : 65 ≤ c.toNat := hletter.1
    omega
  have hsmall : digitValue c < 10 := by
    show c.toNat - 48 < 10
    omega
  rw [digitIn?, digitValue?, if_neg hlower, if_neg hupper, decimalValue?, if_pos (by omega), if_pos h]
  show Option.filter _ (some (digitValue c)) = _
  simp [hsmall]

/-- Decimal digits are read one by one. -/
theorem digitsOf?_of_digits (hne : cs ≠ []) (h : ∀ c ∈ cs, c.isDigit = true) :
    digitsOf? 10 cs = some (cs.map digitValue) := by
  induction cs with
  | nil => exact absurd rfl hne
  | cons c cs ih =>
    have hc := digitIn?_of_isDigit (h c List.mem_cons_self)
    cases cs with
    | nil => simp [digitsOf?, hc]
    | cons d cs =>
      have hrest := ih (List.cons_ne_nil _ _) (fun c hin => h c (List.mem_cons_of_mem _ hin))
      -- An underscore between digits is passed over, but it is no digit itself.
      have hmark : d ≠ '_' := by
        rintro rfl
        exact absurd (h '_' (by simp)) (by decide)
      rw [digitsOf?]
      · simp [hc, hrest]
      · exact hmark

theorem dropBaseMark_ten (cs : List Char) : dropBaseMark 10 cs = cs := by
  unfold dropBaseMark
  split
  · simp [baseMark?]
  · rfl

/-- **Digits are read as the number that they write.** -/
theorem integer?_of_digits (h : Digits s) : integer? s = some (number s : Int) := by
  have hblank : ∀ c ∈ s.toList, isIntegerBlank c = false := by
    intro c hc
    have hrange := isDigit_iff.mp (h.digit c hc)
    simp only [isIntegerBlank, isBlank, Bool.and_eq_false_iff, Bool.or_eq_false_iff,
      decide_eq_false_iff_not, beq_eq_false_iff_ne]
    omega
  obtain ⟨c, cs, hs⟩ := List.exists_cons_of_ne_nil (toList_ne_nil h.ne_empty)
  have hdigit : c.isDigit = true := h.digit c (by simp [hs])
  have htrim : trimWhile isIntegerBlank s.toList = c :: cs := by
    rw [trimWhile, hs, List.dropWhile_cons_of_neg, ← hs, trimEndWhile_eq_self_of_neg hblank]
    simp [hblank c (by simp [hs])]
  have hread : natural? 10 (c :: cs) = some (number s) := by
    rw [← hs, natural?, digitsOf?_of_digits (toList_ne_nil h.ne_empty) h.digit]
    simp [h.length_le, number]
  unfold integer? integerIn?
  rw [htrim]
  -- A digit is no sign.
  split
  · next hsame =>
    obtain ⟨rfl, -⟩ := List.cons.inj hsame
    cases hdigit
  · next hsame =>
    obtain ⟨rfl, -⟩ := List.cons.inj hsame
    cases hdigit
  · rw [dropBaseMark_ten, hread]
    rfl

/-! ## What the first digit says -/

theorem le_foldl_digits (n : Nat) (ds : List Nat) : n ≤ ds.foldl (fun n d => 10 * n + d) n := by
  induction ds generalizing n with
  | nil => exact Nat.le_refl n
  | cons d ds ih =>
    have hnext := ih (10 * n + d)
    simp only [List.foldl_cons]
    omega

theorem number_singleton (hs : s.toList = [c]) : number s = digitValue c := by
  simp [number, hs, ofDigits]

theorem digitValue_le_number (hs : s.toList = c :: cs) : digitValue c ≤ number s := by
  have hle := le_foldl_digits (digitValue c) (cs.map digitValue)
  simpa [number, hs, ofDigits] using hle

theorem ten_mul_digitValue_le_number (hs : s.toList = c :: d :: cs) : 10 * digitValue c ≤ number s := by
  have hle := le_foldl_digits (10 * digitValue c + digitValue d) (cs.map digitValue)
  simp only [number, hs, ofDigits, List.map_cons, List.foldl_cons, Nat.mul_zero, Nat.zero_add]
  omega

end

end BuildMeta.Text
