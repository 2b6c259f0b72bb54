import BuildMeta.Text.Format

/-!
# `Proofs.Text.Template` — templates with one place for a text

A template is gone through from left to right: what holds no conversion is copied
(`run_template_append`), and the conversion for texts takes the next value (`run_template_text`).
Flags of compilers are made with templates that have one such conversion (`TakesText`); filling one
cannot fail, and gives the text between two others (`format_text`).
-/

namespace BuildMeta.Text

open Fill

variable {table? : Option (List (String × Datum))} {fuel : Nat} {left : List Datum}

/-- A character of a template other than a percent sign stands for itself. -/
theorem run_template_of_ne {c : Char} (hc : c ≠ '%') (rest : List Char) :
    (template table? (fuel + 1)).run ⟨c :: rest, left⟩
      = (template table? fuel).run ⟨rest, left⟩ >>= fun r => .ok (c :: r.1, r.2) := by
  rw [template]
  simp only [StateT.run_bind, StateT.run_get, pure_bind]
  split
  · next h => cases h
  · next h =>
    cases h
    exact absurd rfl hc
  · next h =>
    cases h
    exact absurd rfl hc
  · next h =>
    cases h
    rfl

/-- What holds no conversion is copied. -/
theorem run_template_append {front : List Char} (hfront : '%' ∉ front) (rest : List Char) :
    (template table? (front.length + fuel)).run ⟨front ++ rest, left⟩
      = (template table? fuel).run ⟨rest, left⟩ >>= fun r => .ok (front ++ r.1, r.2) := by
  induction front with
  | nil =>
    rw [List.length_nil, Nat.zero_add]
    exact (bind_pure _).symm
  | cons c front ih =>
    rw [List.mem_cons, not_or] at hfront
    rw [List.length_cons, Nat.add_right_comm, List.cons_append,
      run_template_of_ne (Ne.symm hfront.1), ih hfront.2]
    cases (template table? fuel).run ⟨rest, left⟩ <;> rfl

/-- The conversion for texts writes the next value. -/
theorem run_template_text (value : Datum) (rest : List Char) :
    (template table? (fuel + 1)).run ⟨'%' :: 's' :: rest, value :: left⟩
      = (template table? fuel).run ⟨rest, left⟩ >>= fun r => .ok (value.text.toList ++ r.1, r.2) := by
  have hpad : (conversion table?).run ⟨'s' :: rest, value :: left⟩
      = .ok (({ kind := 's' } : Conversion).pad value.text.toList, ⟨rest, left⟩) := rfl
  have hconversion :
      (conversion table?).run ⟨'s' :: rest, value :: left⟩ = .ok (value.text.toList, ⟨rest, left⟩) := by
    rw [hpad]
    simp [Conversion.pad]
  have hstep : (template table? (fuel + 1)).run ⟨'%' :: 's' :: rest, value :: left⟩
      = (conversion table?).run ⟨'s' :: rest, value :: left⟩ >>= fun r =>
        (template table? fuel).run r.2 >>= fun q => .ok (r.1 ++ q.1, q.2) := rfl
  rw [hstep, hconversion]
  rfl

/-- A template with one conversion for a text is the text between two others; a missing one is
    written out. -/
theorem format_text {front back : String} (hfront : '%' ∉ front.toList) (hback : '%' ∉ back.toList)
    (text : Option String) :
    format (front ++ "%s" ++ back) (.single (.optStr text))
      = .ok (front ++ (Datum.optStr text).text ++ back) := by
  have hchars : (front ++ "%s" ++ back).toList = front.toList ++ '%' :: 's' :: back.toList := by simp
  have hlength :
      (front ++ "%s" ++ back).length + 1 = front.toList.length + (back.toList.length + 2 + 1) := by
    rw [← String.length_toList, hchars]
    simp
    omega
  have hback' : (template none (back.toList.length + 2)).run ⟨back.toList, []⟩
      = .ok (back.toList, ⟨[], []⟩) := by
    have happend : (template none (back.toList.length + 2)).run ⟨back.toList ++ [], []⟩ = _ :=
      run_template_append hback []
    rw [List.append_nil] at happend
    rw [happend]
    show Except.ok (back.toList ++ [], _) = _
    rw [List.append_nil]
  have hrun : (template none ((front ++ "%s" ++ back).length + 1)).run
        ⟨(front ++ "%s" ++ back).toList, [.optStr text]⟩
      = .ok ((front ++ (Datum.optStr text).text ++ back).toList, ⟨[], []⟩) := by
    rw [hlength, hchars, run_template_append hfront, run_template_text, hback']
    simp only [String.toList_append, List.append_assoc]
    rfl
  have htable : (FormatArgs.single (.optStr text)).table? = none := by cases text <;> rfl
  unfold format
  rw [htable]
  show ((template none ((front ++ "%s" ++ back).length + 1)).run
    ⟨(front ++ "%s" ++ back).toList, [.optStr text]⟩ >>= _) = _
  rw [hrun]
  show Except.ok (String.ofList _) = _
  rw [String.ofList_toList]

/-- A template that has one place for a text. -/
def TakesText (template : Datum) : Prop :=
  ∃ front back, template = .str (front ++ "%s" ++ back) ∧ '%' ∉ front.toList ∧ '%' ∉ back.toList

end BuildMeta.Text
