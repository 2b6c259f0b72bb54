import BuildMeta.Build.Configure
import BuildMeta.Proofs.Text.Digits
import BuildMeta.Proofs.VersionOrder
import Mathlib

/-!
# `Proofs.Build.Thresholds` — what depends on the version of the compiler

Rules compare versions number by number (`VersionOrder.Precedes`).  The language standard of a
compiler and whether its warnings are errors come from a comparison of texts with a threshold such
as `4.8`.  For versions of decimal numbers the texts only compare digits at the front
(`Threshold.le_iff`).  A version that is past the threshold may look older there: `10.2` starts with
a smaller digit than `4.8`, and in `4.10` the second part does.  Such versions get the answer of an
old one, and all others the answer of the rules (`Follows`).
-/

namespace BuildMeta.VersionOrder

variable {v w : String}

/-! ## Versions of decimal numbers -/

/-- All parts of a version are decimal numbers. -/
def DecimalParts (v : String) : Prop := ∀ part ∈ Text.split '.' v, Text.Digits part

instance : DecidablePred DecimalParts := fun v =>
  inferInstanceAs (Decidable (∀ part ∈ Text.split '.' v, Text.Digits part))

/-- A part of a version; zeros follow the last one. -/
def part (v : String) (i : Nat) : String := partAt (Text.split '.' v) i

theorem DecimalParts.digits_part (h : DecimalParts v) (i : Nat) : Text.Digits (part v i) := by
  unfold part partAt
  rw [List.getD_eq_getElem?_getD]
  cases hget : (Text.split '.' v)[i]? with
  | none => exact ⟨by simp, by simp, by simp [Text.maxIntegerDigits]⟩
  | some p => exact h p (List.mem_of_getElem? hget)

theorem DecimalParts.exists_cons (h : DecimalParts v) (i : Nat) :
    ∃ c cs, (part v i).toList = c :: cs ∧ c.isDigit = true ∧ ∀ d ∈ cs, d.isDigit = true := by
  have hdigits := h.digits_part i
  obtain ⟨c, cs, hs⟩ := List.exists_cons_of_ne_nil (Text.toList_ne_nil hdigits.ne_empty)
  refine ⟨c, cs, hs, hdigits.digit c (by simp [hs]), ?_⟩
  intro d hd
  exact hdigits.digit d (by simp [hs, hd])

theorem DecimalParts.integral (h : DecimalParts v) : Integral v := by
  intro p hp
  rw [Text.isInteger, Text.integer?_of_digits (h p hp)]
  rfl

theorem DecimalParts.numbers_eq (h : DecimalParts v) (i : Nat) :
    numbers v i = (Text.number (part v i) : Int) := by
  rw [numbers, ← part, Text.integer?_of_digits (h.digits_part i)]
  rfl

/-- A version starts with its first part.  Then it ends, or a point and the second part follow. -/
theorem exists_rest (v : String) : ∃ rest, v.toList = (part v 0).toList ++ rest ∧
    (rest = [] ∧ part v 1 = "0" ∨ ∃ more, rest = '.' :: ((part v 1).toList ++ more)) := by
  have hjoin : ['.'].intercalate (v.toList.splitOn '.') = v.toList := List.intercalate_splitOn '.'
  unfold part Text.split
  cases hparts : v.toList.splitOn '.' with
  | nil => exact absurd hparts (List.splitOn_ne_nil '.' _)
  | cons first parts =>
    rw [hparts] at hjoin
    cases parts with
    | nil =>
      refine ⟨[], ?_, Or.inl ⟨rfl, rfl⟩⟩
      simpa [partAt] using hjoin.symm
    | cons second parts =>
      refine ⟨'.' :: ['.'].intercalate (second :: parts), ?_, Or.inr ?_⟩
      · simpa [partAt, List.intercalate_cons_cons] using hjoin.symm
      · cases parts with
        | nil => exact ⟨[], by simp [partAt]⟩
        | cons third parts =>
          exact ⟨'.' :: ['.'].intercalate (third :: parts), by simp [partAt, List.intercalate_cons_cons]⟩

/-- A sequence that is zero after its first two members comes before another of no negative ones
    exactly if these two do. -/
theorem toLex_le_iff_front {f g : Nat → Int} (hf : ∀ i, f (i + 2) = 0) (hg : ∀ i, 0 ≤ g i) :
    toLex f ≤ toLex g ↔ f 0 < g 0 ∨ f 0 = g 0 ∧ f 1 ≤ g 1 := by
  constructor
  · intro h
    rcases toLex_le_iff.mp h with hall | ⟨i, hbefore, hless⟩
    · exact Or.inr ⟨hall 0, (hall 1).le⟩
    · rcases i with _ | _ | i
      · exact Or.inl hless
      · exact Or.inr ⟨hbefore 0 (by omega), hless.le⟩
      · exact Or.inr ⟨hbefore 0 (by omega), (hbefore 1 (by omega)).le⟩
  · rintro (hless | ⟨hsame, hle⟩)
    · exact toLex_le_iff.mpr (Or.inr ⟨0, fun j hj => absurd hj j.not_lt_zero, hless⟩)
    · -- No member of the first is greater than the one of the second at its place.
      apply Pi.toLex_monotone
      intro i
      rcases i with _ | _ | i
      · exact hsame.le
      · exact hle
      · rw [hf]
        exact hg _

/-- Both numbers at the front of a version have one digit. -/
def OneDigitEach (v : String) : Prop := (part v 0).length = 1 ∧ (part v 1).length = 1

instance : DecidablePred OneDigitEach := fun v =>
  inferInstanceAs (Decidable ((part v 0).length = 1 ∧ (part v 1).length = 1))

/-! ## Thresholds -/

/-- A version of two digits that other versions are compared with as texts. -/
structure Threshold where
  text : String
  major : Char
  minor : Char
  toList_text : text.toList = [major, '.', minor]
  major_digit : major.isDigit = true
  minor_digit : minor.isDigit = true
  major_ne : major ≠ '0'
  minor_ne : minor ≠ '0'

/-- The digit that a part starts with. -/
def firstDigit (p : String) : Char := p.toList.headD '0'

namespace Threshold

variable (t : Threshold)

/-- A version looks older than a threshold: its first part starts with a smaller digit, or this part
    is the same and the second one starts with a smaller digit. -/
def LooksOlder (v : String) : Prop :=
  firstDigit (part v 0) < t.major ∨ part v 0 = String.singleton t.major ∧ firstDigit (part v 1) < t.minor

instance : DecidablePred t.LooksOlder := fun v =>
  inferInstanceAs (Decidable (firstDigit (part v 0) < t.major ∨
    part v 0 = String.singleton t.major ∧ firstDigit (part v 1) < t.minor))

variable {t}

theorem looksOlder_iff {c d : Char} {cs ds : List Char} (hfirst : (part v 0).toList = c :: cs)
    (hsecond : (part v 1).toList = d :: ds) :
    t.LooksOlder v ↔ c < t.major ∨ (c = t.major ∧ cs = []) ∧ d < t.minor := by
  have hsingle : part v 0 = String.singleton t.major ↔ c = t.major ∧ cs = [] := by
    rw [← String.toList_inj, hfirst]
    simp
  simp [LooksOlder, hsingle, firstDigit, hfirst, hsecond]

theorem point_lt_digit {c : Char} (h : c.isDigit = true) : '.' < c := by
  have hrange := Text.isDigit_iff.mp h
  rw [Char.lt_def, UInt32.lt_iff_toNat_lt]
  show 46 < c.toNat
  omega

theorem zero_lt_minor : '0' < t.minor := by
  have hrange := Text.isDigit_iff.mp t.minor_digit
  have hne : t.minor.toNat ≠ 48 := fun h => t.minor_ne (Char.toNat_inj.mp h)
  rw [Char.lt_def, UInt32.lt_iff_toNat_lt]
  show 48 < t.minor.toNat
  omega

/-- **As a text, a version is less than a threshold exactly if it looks older.** -/
theorem lt_iff (hv : DecimalParts v) : v < t.text ↔ t.LooksOlder v := by
  obtain ⟨rest, hrest, hcases⟩ := exists_rest v
  obtain ⟨c, cs, hfirst, hc, hcs⟩ := hv.exists_cons 0
  obtain ⟨d, ds, hsecond, hd, -⟩ := hv.exists_cons 1
  rw [looksOlder_iff hfirst hsecond, String.lt_iff_toList_lt, t.toList_text, hrest, hfirst,
    List.cons_append, List.cons_lt_cons_iff]
  apply or_congr_right
  rw [and_assoc]
  apply and_congr_right
  intro _
  cases cs with
  | cons e es =>
    -- The first part goes on with a digit where the threshold has its point.
    have hpoint := point_lt_digit (hcs e List.mem_cons_self)
    simp [List.cons_lt_cons_iff, hpoint.ne', hpoint.le]
  | nil =>
    rcases hcases with ⟨rfl, hzero⟩ | ⟨more, rfl⟩
    · -- There is no second part, and so a zero.
      have hlast : d = '0' ∧ ds = [] := by simpa [hzero] using hsecond.symm
      simp [hlast.1, zero_lt_minor]
    · simp [hsecond, List.cons_lt_cons_iff]

/-! ## The numbers of a version and a threshold -/

/-- A threshold is two digits with a point between them. -/
theorem split_text : Text.split '.' t.text = [String.singleton t.major, String.singleton t.minor] := by
  have hjoin : t.text
      = Text.join (String.singleton '.') [String.singleton t.major, String.singleton t.minor] := by
    rw [← String.toList_inj, t.toList_text]
    simp [Text.join]
  rw [hjoin]
  apply Text.split_join (List.cons_ne_nil _ _)
  intro p hp
  have hmajor := (point_lt_digit t.major_digit).ne
  have hminor := (point_lt_digit t.minor_digit).ne
  simp only [List.mem_cons, List.not_mem_nil, or_false] at hp
  rcases hp with rfl | rfl
  · simpa using hmajor
  · simpa using hminor

/-- Both parts of a threshold are decimal, which comparing versions by numbers asks for. -/
theorem decimal_text : DecimalParts t.text := by
  have hone : ∀ {c : Char}, c.isDigit = true → Text.Digits (String.singleton c) := by
    intro c hc
    exact ⟨by simp, by simpa using hc, by simp [Text.maxIntegerDigits]⟩
  intro p hp
  simp only [split_text, List.mem_cons, List.not_mem_nil, or_false] at hp
  rcases hp with rfl | rfl
  · exact hone t.major_digit
  · exact hone t.minor_digit

/-- The numbers of a threshold: its two digits, and zeros behind them as far as a longer version
    goes. -/
theorem numbers_text :
    numbers t.text 0 = Text.digitValue t.major ∧ numbers t.text 1 = Text.digitValue t.minor ∧
    ∀ i, numbers t.text (i + 2) = 0 := by
  have hpart : ∀ i, part t.text i = partAt [String.singleton t.major, String.singleton t.minor] i := by
    intro i
    rw [part, split_text]
  refine ⟨?_, ?_, ?_⟩
  · rw [decimal_text.numbers_eq, hpart, Text.number_singleton (c := t.major)]
    simp [partAt]
  · rw [decimal_text.numbers_eq, hpart, Text.number_singleton (c := t.minor)]
    simp [partAt]
  · intro i
    rw [decimal_text.numbers_eq, hpart, Text.number_singleton (c := '0')]
    · rfl
    · simp [partAt]

/-- A version is past a threshold if its first number is, or the first is the same and the second is
    not less. -/
theorem precedes_iff (hv : DecimalParts v) : Precedes t.text v ↔
    Text.digitValue t.major < Text.number (part v 0) ∨
      Text.digitValue t.major = Text.number (part v 0) ∧
      Text.digitValue t.minor ≤ Text.number (part v 1) := by
  obtain ⟨hmajor, hminor, hzero⟩ := numbers_text (t := t)
  have hnonneg : ∀ i, 0 ≤ numbers v i := by
    intro i
    rw [hv.numbers_eq]
    exact Int.natCast_nonneg _
  rw [precedes_iff_numbers decimal_text.integral hv.integral, toLex_le_iff_front hzero hnonneg,
    hmajor, hminor, hv.numbers_eq, hv.numbers_eq, Nat.cast_lt, Nat.cast_inj, Nat.cast_le]

theorem one_le_major : 1 ≤ Text.digitValue t.major := by
  have hrange := Text.isDigit_iff.mp t.major_digit
  have hne : t.major.toNat ≠ 48 := fun h => t.major_ne (Char.toNat_inj.mp h)
  show 1 ≤ t.major.toNat - 48
  omega

/-- A version that does not look older is past the threshold. -/
theorem precedes_of_not_looksOlder (hv : DecimalParts v) (h : ¬ t.LooksOlder v) : Precedes t.text v := by
  obtain ⟨c, cs, hfirst, hc, -⟩ := hv.exists_cons 0
  obtain ⟨d, ds, hsecond, hd, -⟩ := hv.exists_cons 1
  have hmajor := one_le_major (t := t)
  rw [looksOlder_iff hfirst hsecond, Text.lt_iff_digitValue_lt hc t.major_digit,
    Text.eq_iff_digitValue_eq hc t.major_digit, Text.lt_iff_digitValue_lt hd t.minor_digit] at h
  have hfirstLe := Text.digitValue_le_number hfirst
  have hsecondLe := Text.digitValue_le_number hsecond
  rw [precedes_iff hv]
  cases cs with
  | nil =>
    -- The only digit is greater, or the second part decides.
    rw [Text.number_singleton hfirst] at hfirstLe ⊢
    simp only [and_true] at h
    omega
  | cons e es =>
    -- A number of two digits is past one of one digit.
    have hten := Text.ten_mul_digitValue_le_number hfirst
    omega

/-- A version with one digit in each of its first two parts looks older only if it is. -/
theorem not_looksOlder_of_precedes (hv : DecimalParts v) (hone : OneDigitEach v)
    (h : Precedes t.text v) :
    ¬ t.LooksOlder v := by
  obtain ⟨c, cs, hfirst, hc, -⟩ := hv.exists_cons 0
  obtain ⟨d, ds, hsecond, hd, -⟩ := hv.exists_cons 1
  have hcs : cs = [] := by simpa [← String.length_toList, hfirst] using hone.1
  have hds : ds = [] := by simpa [← String.length_toList, hsecond] using hone.2
  subst hcs hds
  rw [precedes_iff hv, Text.number_singleton hfirst, Text.number_singleton hsecond] at h
  rw [looksOlder_iff hfirst hsecond, Text.lt_iff_digitValue_lt hc t.major_digit,
    Text.eq_iff_digitValue_eq hc t.major_digit, Text.lt_iff_digitValue_lt hd t.minor_digit]
  omega

end Threshold

/-! ## Answers -/

/-- At a version, an answer follows a threshold: it is yes if rules take the version to be past the
    threshold, unless it looks older. -/
structure Follows (t : Threshold) (answer : String → Prop) (v : String) : Prop where
  /-- This is when the answer is yes. -/
  iff_within : answer v ↔ within v (some t.text) none = true ∧ ¬ t.LooksOlder v
  /-- With one digit in each of its first two parts, a version gets the answer of the rules. -/
  agrees : OneDigitEach v → (answer v ↔ within v (some t.text) none = true)
  /-- Such a version gets a yes after any other that does. -/
  mono : OneDigitEach v → ∀ u, DecimalParts u → Precedes u v → answer u → answer v

theorem within_none_iff {least : String} (h : least ≠ "") :
    within v (some least) none = true ↔ Precedes least v := by
  simp [within_iff, h]

theorem Threshold.text_ne_empty (t : Threshold) : t.text ≠ "" := by
  intro h
  have hlist := t.toList_text
  simp [h] at hlist

/-- Comparing texts follows the threshold. -/
theorem follows_of_le {t : Threshold} {answer : String → Prop} (h : ∀ v, answer v ↔ t.text ≤ v)
    (hv : DecimalParts v) : Follows t answer v := by
  have hlooks : ∀ {u}, DecimalParts u → (answer u ↔ ¬ t.LooksOlder u) := by
    intro u hu
    rw [h, ← String.not_lt, Threshold.lt_iff hu]
  have hpast : ∀ {u}, DecimalParts u → answer u → Precedes t.text u := by
    intro u hu hyes
    exact Threshold.precedes_of_not_looksOlder hu ((hlooks hu).mp hyes)
  have hshort : OneDigitEach v → Precedes t.text v → answer v := by
    intro hone hprecedes
    exact (hlooks hv).mpr (Threshold.not_looksOlder_of_precedes hv hone hprecedes)
  refine ⟨?_, ?_, ?_⟩
  · rw [within_none_iff t.text_ne_empty]
    constructor
    · intro hyes
      exact ⟨hpast hv hyes, (hlooks hv).mp hyes⟩
    · rintro ⟨-, hyoung⟩
      exact (hlooks hv).mpr hyoung
  · intro hone
    rw [within_none_iff t.text_ne_empty]
    exact ⟨hpast hv, hshort hone⟩
  · intro hone u hu huv hyes
    have hu' := hpast hu hyes
    apply hshort hone
    rw [precedes_iff_lex] at hu' huv ⊢
    exact hu'.trans huv

end BuildMeta.VersionOrder

namespace BuildMeta.Build

open VersionOrder

/-- From this version on `gcc` uses the newer standard. -/
def gccStandard : Threshold :=
  ⟨"4.8", '4', '8', rfl, by decide, by decide, by decide, by decide⟩

/-- From this version on `clang` uses the newer standard. -/
def clangStandard : Threshold :=
  ⟨"3.6", '3', '6', rfl, by decide, by decide, by decide, by decide⟩

/-- From this version on warnings of `gcc` are errors. -/
def gccWarnings : Threshold :=
  ⟨"4.9", '4', '9', rfl, by decide, by decide, by decide, by decide⟩

theorem standard_eq_eleven_iff {threshold v : String} :
    (Except.ok (if threshold ≤ v then "11" else "03") : Except Failure String) = .ok "11" ↔
    threshold ≤ v := by
  by_cases h : threshold ≤ v <;> simp [h]

/-- **What the version of the compiler decides follows a threshold.**  This holds, for every version
    of decimal numbers, of the two standards and, where the command line does not say and the
    flavour has no `opt`, of whether warnings are errors. -/
theorem compiler_thresholds (v : String) (hv : DecimalParts v) :
    Follows gccStandard (fun v => Ufid.defaultStandard "gcc" (some v) = .ok "11") v ∧
    Follows clangStandard (fun v => Ufid.defaultStandard "clang" (some v) = .ok "11") v ∧
    ∀ (s : Setup) (uplid : Uplid) (ufid : Ufid), (s.option "werror").isNull = true →
      uplid.compilerType = "gcc" → ufid.has "opt" = false →
      Follows gccWarnings
        (fun v => Configure.refusesWarnings s { uplid with compilerVersion := v } ufid = true) v := by
  refine ⟨?_, ?_, ?_⟩
  · apply follows_of_le _ hv
    intro u
    exact standard_eq_eleven_iff
  · apply follows_of_le _ hv
    intro u
    exact standard_eq_eleven_iff
  · intro s uplid ufid hunset hgcc hopt
    apply follows_of_le _ hv
    intro u
    simp [Configure.refusesWarnings, Toolchain.refusesWarnings, hunset, hgcc, hopt, gccWarnings]

/-- A setup that leaves all to the compiler. -/
def plainSetup : Setup where
  tree := ⟨∅, []⟩
  root := "/repo"
  tools := "/tools"
  ownPkgConfig := []
  host := { shell := fun _ => .ok "" }
  options := ∅

/-- The number of digits does not matter from the third part on. -/
theorem compiler_thresholds_short :
    DecimalParts "4.9.10" ∧ OneDigitEach "4.9.10" ∧ within "4.9.10" (some "4.8") none = true ∧
    Ufid.defaultStandard "gcc" (some "4.9.10") = .ok "11" ∧
    (plainSetup.option "werror").isNull = true ∧
    Configure.refusesWarnings plainSetup { compilerType := "gcc", compilerVersion := "4.9.10" } ⟨["dbg"]⟩
      = true := by
  have hdecimal : DecimalParts "4.9.10" := by decide +kernel
  have hone : OneDigitEach "4.9.10" := by decide +kernel
  have hstandard : within "4.9.10" (some "4.8") none = true := by cbv
  have hwarnings : within "4.9.10" (some "4.9") none = true := by cbv
  have hunset : (plainSetup.option "werror").isNull = true := by decide +kernel
  obtain ⟨hgcc, -, hrefuses⟩ := compiler_thresholds "4.9.10" hdecimal
  have hfollows := hrefuses plainSetup { compilerType := "gcc" } ⟨["dbg"]⟩ hunset rfl (by decide)
  exact ⟨hdecimal, hone, hstandard, (hgcc.agrees hone).mpr hstandard, hunset,
    (hfollows.agrees hone).mpr hwarnings⟩

/-- Versions past the thresholds look older and get a no, even after others that get a yes. -/
theorem compiler_thresholds_missed :
    (DecimalParts "4.10" ∧ DecimalParts "10.2" ∧ DecimalParts "3.10") ∧
    (within "4.10" (some "4.8") none = true ∧ gccStandard.LooksOlder "4.10" ∧
      Ufid.defaultStandard "gcc" (some "4.10") = .ok "03") ∧
    (within "10.2" (some "4.8") none = true ∧ gccStandard.LooksOlder "10.2" ∧
      Ufid.defaultStandard "gcc" (some "10.2") = .ok "03") ∧
    (within "3.10" (some "3.6") none = true ∧ clangStandard.LooksOlder "3.10" ∧
      Ufid.defaultStandard "clang" (some "3.10") = .ok "03") ∧
    (Precedes "4.9" "4.10" ∧
      Configure.refusesWarnings plainSetup { compilerType := "gcc", compilerVersion := "4.9" } ⟨[]⟩
        = true ∧
      Configure.refusesWarnings plainSetup { compilerType := "gcc", compilerVersion := "4.10" } ⟨[]⟩
        = false) := by
  have hten : within "4.10" (some "4.8") none = true := by cbv
  have hmajor : within "10.2" (some "4.8") none = true := by cbv
  have hclang : within "3.10" (some "3.6") none = true := by cbv
  have hnext : Precedes "4.9" "4.10" := (within_none_iff (by decide)).mp (by cbv)
  refine ⟨?_, ⟨hten, ?_⟩, ⟨hmajor, ?_⟩, ⟨hclang, ?_⟩, hnext, ?_⟩
  all_goals decide +kernel

end BuildMeta.Build
