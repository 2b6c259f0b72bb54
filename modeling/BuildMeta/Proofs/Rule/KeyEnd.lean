import BuildMeta.Proofs.Rule.RoundTrip

/-!
# `Proofs.Rule.KeyEnd` — at which equals sign a key ends

Between the third word of a rule and its value stands an equals sign, and no gap is needed on either
side of it.  An `Assignment` is a line that is put together in this tight way: `key=value`.  What is
read from it need not be this key and this value, since the reader takes the longest key that it can
(`LongestKey`).  An equals sign further on in the same word, or right before the next one, is a
rival (`HasRival`), and the key and the value are read as they were put together exactly if there is
none (`Assignment.read_text`).
-/

namespace BuildMeta.Rule

/-! ## Rivals -/

/-- In a value there is an equals sign at which a longer key could end: one in the word that goes on
    after the first equals sign, or one that only a gap parts from this word. -/
def HasRival (value : List Char) : Prop :=
  ∃ more gap rest, value = more ++ (gap ++ '=' :: rest) ∧ (∀ c ∈ more, Text.isBlank c = false) ∧
  IsGap gap

section

variable {key value : List Char}

theorem keyAt_tight (hkey : IsWord key) (value : List Char) : KeyAt (key ++ '=' :: value) key value := by
  refine ⟨[], ?_, hkey, [], ?_, rfl⟩
  · simp [IsGap]
  · simp [IsGap]

/-- A rival lets the key go on. -/
theorem exists_longer_of_hasRival (hkey : IsWord key) (h : HasRival value) :
    ∃ key' value', KeyAt (key ++ '=' :: value) key' value' ∧ key.length < key'.length := by
  obtain ⟨more, gap, rest, rfl, hmore, hgap⟩ := h
  refine ⟨key ++ '=' :: more, rest, ⟨gap, hgap, ⟨?_, ?_⟩, [], ?_, ?_⟩, ?_⟩
  · simp
  · intro c hc
    rcases List.mem_append.mp hc with hc | hc
    · exact hkey.noBlank c hc
    · rcases List.mem_cons.mp hc with rfl | hc
      · decide
      · exact hmore c hc
  · simp [IsGap]
  · simp
  · simp

/-- A key that goes on ends at a rival. -/
theorem hasRival_of_longer (hkey : IsWord key) {key' value' : List Char}
    (h : KeyAt (key ++ '=' :: value) key' value') (hlonger : key.length < key'.length) :
    HasRival value := by
  obtain ⟨gap, hgap, hat⟩ := h
  have hsame : key' ++ (gap ++ '=' :: value') = key ++ '=' :: value :=
    hat.dropWhile_eq.symm.trans (hkey.dropWhile_append _)
  -- The longer key is the key, the equals sign and some characters more.
  rcases List.append_eq_append_iff.mp hsame with ⟨more, hshort, -⟩ | ⟨more, hlong, hrest⟩
  · rw [hshort, List.length_append] at hlonger
    omega
  · cases more with
    | nil =>
      rw [hlong, List.append_nil] at hlonger
      omega
    | cons c more =>
      obtain ⟨rfl, rfl⟩ := List.cons.inj hrest
      refine ⟨more, gap, value', rfl, ?_, hgap⟩
      intro c hc
      apply hat.1.noBlank
      simp [hlong, hc]

/-- **The key ends at the first equals sign exactly if this has no rival.** -/
theorem longestKey_iff_not_hasRival (hkey : IsWord key) :
    LongestKey (key ++ '=' :: value) key value ↔ ¬ HasRival value := by
  constructor
  · intro h hrival
    obtain ⟨key', value', hlonger, hlt⟩ := exists_longer_of_hasRival hkey hrival
    have hle := h.2 key' value' hlonger
    omega
  · intro hnone
    refine ⟨keyAt_tight hkey value, ?_⟩
    intro key' value' hother
    by_contra hlt
    exact hnone (hasRival_of_longer hkey hother (Nat.lt_of_not_le hlt))

end

/-! ## Lines that are put together -/

/-- A text of one line that states a rule is read as this rule alone. -/
theorem read_of_states {line : String} {rule : Rule} (hnewline : '\n' ∉ line.toList)
    (hcomment : isCommentLine line.toList = false) (hclosed : goesOn line = false)
    (h : States line [] rule) :
    (read line).failure = none ∧ (read line).rules = [rule] := by
  have hne : line ≠ "" := by
    rintro rfl
    cases hcomment
  have hlines : Text.lines line = [line] := by
    have hjoin : Text.lines (Text.join "\n" [line]) = [line] :=
      Text.lines_join (by simpa using hne) (by simpa using hnewline)
    rwa [Text.join, String.intercalate_singleton] at hjoin
  have hblocks : blocksFrom 1 [line] = [.group 1 line []] := by
    rw [blocksFrom, hcomment, if_neg Bool.false_ne_true, takenIn, List.drop_nil, blocksFrom]
  obtain ⟨rules, hyields, hrules⟩ := Reading.steps_yields (r := {}) ⟨rfl, rfl⟩ 1 [line]
  rw [hblocks] at hyields
  obtain ⟨rfl, hfailure⟩ := hyields.unique (.rule hclosed h .nil)
  unfold read
  rw [hlines]
  exact ⟨hfailure, hrules⟩

/-- A gap between two words of a line. -/
structure Spacing (gap : List Char) : Prop where
  ne_nil : gap ≠ []
  blank : IsGap gap
  noNewline : '\n' ∉ gap

/-- The parts of a line in which the equals sign stands between key and value without gaps.  The key
    may be any word. -/
structure Assignment where
  command : Command
  uplid : String
  ufid : String
  key : String
  value : String
  lead : List Char
  gap₁ : List Char
  gap₂ : List Char
  gap₃ : List Char
  uplid_solid : Text.Solid uplid
  uplid_parts : (Text.split '-' uplid).length ≤ 6
  ufid_solid : Text.Solid ufid
  key_solid : Text.Solid key
  value_noNewline : '\n' ∉ value.toList
  value_closed : goesOn value = false
  lead_blank : IsGap lead
  lead_noNewline : '\n' ∉ lead
  gap₁_spacing : Spacing gap₁
  gap₂_spacing : Spacing gap₂
  gap₃_spacing : Spacing gap₃

namespace Assignment

variable (a : Assignment)

/-- The third word and what follows it. -/
def tail : List Char := a.key.toList ++ '=' :: a.value.toList

/-- What follows the command. -/
def fields : List Char := a.gap₁ ++ (a.uplid.toList ++ (a.gap₂ ++ (a.ufid.toList ++ (a.gap₃ ++ a.tail))))

/-- The line. -/
def text : String := String.ofList (a.lead ++ (a.command.render.toList ++ a.fields))

theorem toList_text : a.text.toList = a.lead ++ (a.command.render.toList ++ a.fields) :=
  String.toList_ofList

theorem startsBlank_of_spacing {gap : List Char} (h : Spacing gap) (rest : List Char) :
    StartsBlank (gap ++ rest) := by
  obtain ⟨c, gap', rfl⟩ := List.exists_cons_of_ne_nil h.ne_nil
  exact ⟨c, gap' ++ rest, rfl, h.blank c List.mem_cons_self⟩

theorem text_eq_append : ∃ front, a.text = String.ofList (front ++ '=' :: a.value.toList) := by
  refine ⟨a.lead
    ++ (a.command.render.toList ++ (a.gap₁ ++ (a.uplid.toList ++ (a.gap₂ ++ (a.ufid.toList ++
    (a.gap₃ ++ a.key.toList)))))), ?_⟩
  simp [text, fields, tail]

theorem goesOn_text : goesOn a.text = false := by
  obtain ⟨front, hfront⟩ := a.text_eq_append
  rw [hfront, goesOn_after (by decide), a.value_closed]

theorem isCommentLine_text : isCommentLine a.text.toList = false := by
  unfold isCommentLine
  rw [toList_text, List.dropWhile_append_of_pos a.lead_blank, dropWhile_command]
  cases a.command <;> rfl

theorem noNewline_text : '\n' ∉ a.text.toList := by
  simp [toList_text, fields, tail, noNewline_command, a.uplid_solid.noNewline, a.ufid_solid.noNewline,
    a.key_solid.noNewline, a.value_noNewline, a.lead_noNewline, a.gap₁_spacing.noNewline,
    a.gap₂_spacing.noNewline, a.gap₃_spacing.noNewline]

/-- The first way to split the line has its command, platform and flavour, and some longest key. -/
theorem exists_firstSplit_text : ∃ key value, LongestKey a.tail key value ∧
    FirstSplit a.text.toList ⟨some a.command, a.uplid.toList, a.ufid.toList, key, value⟩ := by
  have hword := isWord_of_solid a.key_solid
  have hskip : ∀ {key value}, KeyAt (a.gap₃ ++ a.tail) key value ↔ KeyAt a.tail key value := by
    intro key value
    rw [← keyAt_dropWhile_iff, List.dropWhile_append_of_pos a.gap₃_spacing.blank, keyAt_dropWhile_iff]
  obtain ⟨key, value, hlongest⟩ := exists_longestKey (keyAt_tight hword a.value.toList)
  refine ⟨key, value, hlongest, ?_⟩
  apply firstSplit_of_command a.lead_blank a.toList_text
  · exact ⟨isWord_of_solid a.uplid_solid, a.gap₁, a.gap₁_spacing.blank, rfl⟩
  · exact startsBlank_of_spacing a.gap₂_spacing _
  · exact ⟨isWord_of_solid a.ufid_solid, a.gap₂, a.gap₂_spacing.blank, rfl⟩
  · exact startsBlank_of_spacing a.gap₃_spacing _
  · refine ⟨hskip.mpr hlongest.1, ?_⟩
    intro key' value' hother
    exact hlongest.2 key' value' (hskip.mp hother)

/-- The line states a rule with its command, platform and flavour, a longest key and the value after
    it. -/
theorem exists_states_text : ∃ rule, States a.text [] rule ∧ rule.command = a.command ∧
    Uplid.parse a.uplid = .ok rule.uplid ∧ rule.ufid = Ufid.parse a.ufid ∧
    ∃ value, LongestKey a.tail rule.key.toList value ∧ rule.value = Text.trim (String.ofList value) := by
  obtain ⟨key, value, hlongest, hfirst⟩ := a.exists_firstSplit_text
  obtain ⟨uplid, huplid⟩ : ∃ uplid, Uplid.parse a.uplid = .ok uplid :=
    ⟨_, if_neg (Nat.not_lt.mpr a.uplid_parts)⟩
  -- Wherever the key ends, the value reaches to the end of the line, which does not go on.
  have hclosed : goesOn (String.ofList value) = false := by
    obtain ⟨front, hfront⟩ := hfirst.1.exists_front
    have hline : a.text = String.ofList (front ++ '=' :: (String.ofList value).toList) := by
      rw [← String.toList_inj, String.toList_ofList, String.toList_ofList, hfront]
    rw [← goesOn_after (show '=' ≠ '\\' by decide) front, ← hline, a.goesOn_text]
  refine ⟨_, ⟨_, uplid, hfirst, by rwa [String.ofList_toList], rfl⟩, rfl, huplid, ?_, value, ?_, ?_⟩
  · rw [String.ofList_toList]
  · rwa [String.toList_ofList]
  · simp [withoutMark, hclosed, Text.join]

/-- **Where the key of a tight line ends.**  Every such line is read without a failure as one rule,
    with the command, the platform and the flavour of the line.  Its key is the longest that the
    third word allows, and its value what stands after the equals sign there.  So the key and the
    value are those that the line was put together from exactly if the equals sign between them has
    no rival. -/
theorem read_text : (read a.text).failure = none ∧
    ∃ rule, (read a.text).rules = [rule] ∧ rule.command = a.command ∧
      Uplid.parse a.uplid = .ok rule.uplid ∧ rule.ufid = Ufid.parse a.ufid ∧
      (∃ value, LongestKey a.tail rule.key.toList value ∧ rule.value = Text.trim (String.ofList value)) ∧
      (rule.key = a.key ∧ rule.value = Text.trim a.value ↔ ¬ HasRival a.value.toList) := by
  have hword := isWord_of_solid a.key_solid
  have htight : KeyAt a.tail a.key.toList a.value.toList := keyAt_tight hword _
  obtain ⟨rule, hstates, hcommand, huplid, hufid, value, hlongest, hvalue⟩ := a.exists_states_text
  obtain ⟨hfailure, hrules⟩ := read_of_states a.noNewline_text a.isCommentLine_text a.goesOn_text hstates
  refine ⟨hfailure, rule, hrules, hcommand, huplid, hufid, ⟨value, hlongest, hvalue⟩, ?_⟩
  rw [← longestKey_iff_not_hasRival hword]
  constructor
  · rintro ⟨hkey, -⟩
    rw [hkey] at hlongest
    obtain ⟨-, rfl⟩ := hlongest.1.unique htight rfl
    exact hlongest
  · intro h
    -- Two longest keys are equally long.
    have hle := h.2 _ _ hlongest.1
    have hge := hlongest.2 _ _ htight
    obtain ⟨hkey, rfl⟩ := hlongest.1.unique htight (Nat.le_antisymm hle hge)
    exact ⟨String.toList_inj.mp hkey, by rw [hvalue, String.ofList_toList]⟩

example :
    (read "!! * _ KEY=a b=c").rules.map (fun rule => (rule.key, rule.value)) = [("KEY", "a b=c")] := by
  decide +kernel

theorem spacing_blank : Spacing [' '] := ⟨by simp, by simp [IsGap, Text.isBlank], by simp⟩

/-- A line whose value is a compiler flag with an equals sign. -/
def standardFlag : Assignment where
  command := .override
  uplid := "*"
  ufid := "_"
  key := "KEY"
  value := "-std=c++11"
  lead := []
  gap₁ := [' ']
  gap₂ := [' ']
  gap₃ := [' ']
  uplid_solid := ⟨by decide, by decide⟩
  uplid_parts := by decide +kernel
  ufid_solid := ⟨by decide, by decide⟩
  key_solid := ⟨by decide, by decide⟩
  value_noNewline := by decide
  value_closed := by decide +kernel
  lead_blank := by simp [IsGap]
  lead_noNewline := by simp
  gap₁_spacing := spacing_blank
  gap₂_spacing := spacing_blank
  gap₃_spacing := spacing_blank

/-- The key takes in a part of the value, and so it does if the rival comes after a gap. -/
theorem key_takes_value :
    standardFlag.text = "!! * _ KEY=-std=c++11" ∧ (read standardFlag.text).failure = none ∧
    (read standardFlag.text).rules.map (fun rule => (rule.key, rule.value)) = [("KEY=-std", "c++11")] ∧
    (read "!! * _ KEY= =x").rules.map (fun rule => (rule.key, rule.value)) = [("KEY=", "x")] := by
  have htext : standardFlag.text = "!! * _ KEY=-std=c++11" := by decide +kernel
  rw [htext]
  decide +kernel

end Assignment

end BuildMeta.Rule
