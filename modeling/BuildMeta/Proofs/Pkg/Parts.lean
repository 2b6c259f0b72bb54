import BuildMeta.Pkg.Version
import BuildMeta.Proofs.Text.Plain

/-!
# `Proofs.Pkg.Parts` — reading the parts of a version

The parts of a version are read in passes.  A pass takes at most one separator and the whole run of part
characters after it (`Pass`); where no pass is possible, reading ends, and the rest of the text is
ignored.

* `readAll_eq_iff` — what is read is what the passes take, up to the place where none is possible;
* `Passes.length_le` — each pass takes a character at least, so reading ends on every text;
* `unsigned_readAll` — no part holds a sign, so no number that is read is negative.
-/

namespace BuildMeta

/-- A text without a minus sign does not stand for a negative number. -/
theorem Text.nonneg_of_integer? {s : String} {n : Int} (hminus : '-' ∉ s.toList)
    (h : integer? s = some n) : 0 ≤ n := by
  have hsub : ∀ c ∈ trimWhile isIntegerBlank s.toList, c ∈ s.toList := by
    intro c hc
    exact List.dropWhile_subset _ ((trimEndWhile_isPrefix _ _).mem hc)
  unfold integer? integerIn? at h
  split at h
  · next rest heq =>
    rw [heq] at hsub
    exact absurd (hsub '-' List.mem_cons_self) hminus
  all_goals
    obtain ⟨k, _, rfl⟩ := Option.map_eq_some_iff.mp h
    exact Int.natCast_nonneg k

namespace Pkg.Part

variable {s t run rest : List Char} {p : Part} {ps : List Part}

/-! ## One pass -/

/-- A run of part characters. -/
structure IsRun (run : List Char) : Prop where
  ne_nil : run ≠ []
  chars : ∀ c ∈ run, isPartChar c = true

/-- What may stand before a part: one separator, or nothing. -/
structure IsGap (gap : List Char) : Prop where
  length_le : gap.length ≤ 1
  separators : ∀ c ∈ gap, isSeparator c = true

/-- One pass: from a text that starts with a part, after one separator at most, to the text behind
    the part. The part goes as far as part characters do. -/
inductive Pass : List Char → Part → List Char → Prop
  | take {gap run rest : List Char} (hgap : IsGap gap) (hrun : IsRun run)
      (hend : ∀ c ∈ rest.head?, isPartChar c = false) : Pass (gap ++ (run ++ rest)) (ofRun run) rest

theorem isPartChar_of_isSeparator {c : Char} (h : isSeparator c = true) : isPartChar c = false := by
  simp only [isSeparator, List.contains_eq_mem, List.mem_cons, List.not_mem_nil, or_false,
    decide_eq_true_eq] at h
  rcases h with rfl | rfl | rfl | rfl | rfl | rfl <;> decide

theorem exists_gap (s : List Char) : ∃ gap, IsGap gap ∧ s = gap ++ afterSeparator s := by
  cases s with
  | nil => exact ⟨[], ⟨by simp, by simp⟩, rfl⟩
  | cons c rest =>
    by_cases h : isSeparator c = true
    · exact ⟨[c], ⟨by simp, by simpa using h⟩, by simp [afterSeparator, h]⟩
    · exact ⟨[], ⟨by simp, by simp⟩, by simp [afterSeparator, h]⟩

/-- A separator before a run is passed over, and the run itself does not start with one. -/
theorem afterSeparator_append {gap : List Char} (hgap : IsGap gap) (hrun : IsRun run) :
    afterSeparator (gap ++ (run ++ rest)) = run ++ rest := by
  cases gap with
  | nil =>
    obtain ⟨c, run, rfl⟩ := List.exists_cons_of_ne_nil hrun.ne_nil
    have hc : isPartChar c = true := hrun.chars c List.mem_cons_self
    have hnot : ¬ isSeparator c = true := by
      intro hsep
      rw [isPartChar_of_isSeparator hsep] at hc
      cases hc
    simp [afterSeparator, hnot]
  | cons c more =>
    have hmore : more = [] := by simpa using hgap.length_le
    have hc : isSeparator c = true := hgap.separators c List.mem_cons_self
    simp [afterSeparator, hc, hmore]

/-- Reading goes on with a pass wherever one is possible. -/
theorem readAll_of_pass (h : Pass s p t) : readAll s = p :: readAll t := by
  obtain @⟨gap, run, rest, hgap, hrun, hend⟩ := h
  rw [readAll, afterSeparator_append hgap hrun, Text.takeWhile_append_stop hrun.chars hend]
  simp [hrun.ne_nil]

/-- Where some part characters follow, a pass is possible. -/
theorem pass_of_run (hne : (afterSeparator s).takeWhile isPartChar ≠ []) :
    Pass s (ofRun ((afterSeparator s).takeWhile isPartChar))
      ((afterSeparator s).dropWhile isPartChar) := by
  obtain ⟨gap, hgap, hs⟩ := exists_gap s
  have hrun : IsRun ((afterSeparator s).takeWhile isPartChar) :=
    ⟨hne, fun c hc => List.mem_takeWhile_imp hc⟩
  have hend : ∀ c ∈ ((afterSeparator s).dropWhile isPartChar).head?, isPartChar c = false := by
    intro c hc
    have hnot := List.head?_dropWhile_not isPartChar (afterSeparator s)
    rw [Option.mem_def.mp hc] at hnot
    exact hnot
  have hpass := Pass.take hgap hrun hend
  rwa [List.takeWhile_append_dropWhile, ← hs] at hpass

theorem readAll_of_no_pass (h : ∀ p t, ¬ Pass s p t) : readAll s = [] := by
  have hrun : (afterSeparator s).takeWhile isPartChar = [] := by
    by_contra hne
    exact h _ _ (pass_of_run hne)
  rw [readAll, hrun]
  rfl

/-- A pass takes a character at least. -/
theorem Pass.length_lt (h : Pass s p t) : t.length < s.length := by
  obtain @⟨gap, run, rest, _, hrun, _⟩ := h
  have hpos : 0 < run.length := List.length_pos_of_ne_nil hrun.ne_nil
  simp only [List.length_append]
  omega

/-! ## All passes -/

/-- Passes one after the other, with the parts that they take. -/
inductive Passes : List Char → List Part → List Char → Prop
  | done (s : List Char) : Passes s [] s
  | pass {s t u : List Char} {p : Part} {ps : List Part} (h : Pass s p t) (hs : Passes t ps u) :
      Passes s (p :: ps) u

theorem Passes.length_le (h : Passes s ps t) : ps.length + t.length ≤ s.length := by
  induction h with
  | done s => simp
  | pass h _ ih =>
    have hlt := h.length_lt
    rw [List.length_cons]
    omega

theorem readAll_of_passes (h : Passes s ps t) : readAll s = ps ++ readAll t := by
  induction h with
  | done s => rfl
  | pass h _ ih => rw [readAll_of_pass h, ih, List.cons_append]

/-- From every text passes lead to a place where none is possible. -/
theorem exists_passes (s : List Char) : ∃ ps t, Passes s ps t ∧ ∀ p u, ¬ Pass t p u := by
  -- The induction is on the length of the text, since each pass shortens it.
  induction hlen : s.length using Nat.strong_induction_on generalizing s with
  | _ len ih =>
    by_cases h : ∃ p t, Pass s p t
    · obtain ⟨p, t, hpass⟩ := h
      obtain ⟨ps, u, hpasses, hend⟩ := ih t.length (hlen ▸ hpass.length_lt) t rfl
      exact ⟨p :: ps, u, .pass hpass hpasses, hend⟩
    · exact ⟨[], s, .done s, fun p t hpass => h ⟨p, t, hpass⟩⟩

/-- **What is read is what the passes take.** -/
theorem readAll_eq_iff : readAll s = ps ↔ ∃ t, Passes s ps t ∧ ∀ p u, ¬ Pass t p u := by
  constructor
  · rintro rfl
    obtain ⟨ps, t, hpasses, hend⟩ := exists_passes s
    have hread : readAll s = ps := by
      rw [readAll_of_passes hpasses, readAll_of_no_pass hend, List.append_nil]
    exact ⟨t, hread ▸ hpasses, hend⟩
  · rintro ⟨t, hpasses, hend⟩
    rw [readAll_of_passes hpasses, readAll_of_no_pass hend, List.append_nil]

/-! ## Signs -/

/-- The part is no negative number. -/
def Unsigned (p : Part) : Prop := ∀ n, p = number n → 0 ≤ n

/-- A part that is read as a number is not below zero. -/
theorem Pass.unsigned (h : Pass s p t) : p.Unsigned := by
  obtain @⟨gap, run, rest, _, hrun, _⟩ := h
  intro n hn
  have hminus : '-' ∉ (String.ofList run).toList := by
    rw [String.toList_ofList]
    intro hin
    have hpart : isPartChar '-' = true := hrun.chars '-' hin
    revert hpart
    decide
  unfold ofRun at hn
  cases hint : Text.integer? (String.ofList run) with
  | none => simp [hint] at hn
  | some m =>
    simp only [hint, number.injEq] at hn
    exact hn ▸ Text.nonneg_of_integer? hminus hint

theorem Passes.unsigned (h : Passes s ps t) : ∀ p ∈ ps, p.Unsigned := by
  induction h with
  | done s => simp
  | pass h _ ih => exact List.forall_mem_cons.mpr ⟨h.unsigned, ih⟩

theorem unsigned_readAll (s : List Char) : ∀ p ∈ readAll s, p.Unsigned := by
  obtain ⟨_, hpasses, _⟩ := readAll_eq_iff.mp (rfl : readAll s = readAll s)
  exact hpasses.unsigned

end Pkg.Part

end BuildMeta
