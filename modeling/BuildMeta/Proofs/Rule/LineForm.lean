import BuildMeta.Rule.Line
import BuildMeta.Proofs.Text.Plain

/-!
# `Proofs.Rule.LineForm` — how a line is split into the parts of a rule

A line can often be read as a rule in several ways: the characters of a command may as well belong to the
platform, and a key may end at any equals sign of its word.  `Splits` says which ways there are and
`Split.Before` which of two comes first.  The reader takes the way that comes before all others
(`lineForm?_eq_some_iff`), and finds none only where there is none (`lineForm?_eq_none_iff`).
-/

namespace BuildMeta.Rule

variable {s w w' rest rest' uplid ufid key value : List Char}

/-! ## Words and gaps -/

/-- Blanks, or nothing. -/
def IsGap (s : List Char) : Prop := ∀ c ∈ s, Text.isBlank c = true

/-- Some characters that are no blanks. -/
structure IsWord (s : List Char) : Prop where
  ne_nil : s ≠ []
  noBlank : ∀ c ∈ s, Text.isBlank c = false

/-- A text starts with a blank. -/
def StartsBlank (s : List Char) : Prop := ∃ c tail, s = c :: tail ∧ Text.isBlank c = true

/-- After a gap, a word stands in a text, and `rest` follows it. -/
def WordAt (s w rest : List Char) : Prop := IsWord w ∧ ∃ gap, IsGap gap ∧ s = gap ++ (w ++ rest)

theorem isWord_of_solid {w : String} (h : Text.Solid w) : IsWord w.toList :=
  ⟨Text.toList_ne_nil h.ne_empty, h.noBlank⟩

theorem isGap_takeWhile (s : List Char) : IsGap (s.takeWhile Text.isBlank) :=
  fun _ hc => List.mem_takeWhile_imp hc

theorem IsWord.dropWhile_append (h : IsWord w) (rest : List Char) :
    (w ++ rest).dropWhile Text.isBlank = w ++ rest := by
  obtain ⟨c, tail, rfl⟩ := List.exists_cons_of_ne_nil h.ne_nil
  rw [List.cons_append, List.dropWhile_cons_of_neg]
  rw [h.noBlank c List.mem_cons_self]
  exact Bool.false_ne_true

theorem WordAt.dropWhile_eq (h : WordAt s w rest) : s.dropWhile Text.isBlank = w ++ rest := by
  obtain ⟨hword, gap, hgap, rfl⟩ := h
  rw [List.dropWhile_append_of_pos hgap, hword.dropWhile_append]

/-- A word that ends where its text does, or before a blank, is the one that is read. -/
theorem WordAt.word_eq (h : WordAt s w rest) (hend : rest = [] ∨ StartsBlank rest) :
    word (s.dropWhile Text.isBlank) = (w, rest) := by
  have hsolid : ∀ c ∈ w, (!Text.isBlank c) = true := by
    intro c hc
    rw [h.1.noBlank c hc]
    rfl
  have hstop : rest.takeWhile (fun c => !Text.isBlank c) = [] := by
    rcases hend with rfl | ⟨c, tail, rfl, hblank⟩
    · rfl
    · exact List.takeWhile_cons_of_neg (by simp [hblank])
  have hkeep : rest.dropWhile (fun c => !Text.isBlank c) = rest := by
    rcases hend with rfl | ⟨c, tail, rfl, hblank⟩
    · rfl
    · exact List.dropWhile_cons_of_neg (by simp [hblank])
  rw [h.dropWhile_eq, word, List.takeWhile_append_of_pos hsolid,
    List.dropWhile_append_of_pos hsolid, hstop, hkeep, List.append_nil]

/-- After a word the text ends, or a blank follows. -/
theorem after_word (s : List Char) : s.dropWhile (fun c => !Text.isBlank c) = [] ∨
    StartsBlank (s.dropWhile (fun c => !Text.isBlank c)) := by
  cases hcase : s.dropWhile (fun c => !Text.isBlank c) with
  | nil => exact Or.inl rfl
  | cons c tail =>
    refine Or.inr ⟨c, tail, rfl, ?_⟩
    have hhead := List.head_dropWhile_not (p := fun c => !Text.isBlank c) (l := s)
      (by rw [hcase]; exact List.cons_ne_nil _ _)
    simpa [hcase] using hhead

/-- The word that is read stands in the text, and ends where the text does or before a blank. -/
theorem wordAt_of_word (h : word (s.dropWhile Text.isBlank) = (w, rest)) (hne : w ≠ []) :
    WordAt s w rest ∧ (rest = [] ∨ StartsBlank rest) := by
  obtain ⟨hw, hrest⟩ := Prod.mk.inj h
  refine ⟨⟨⟨hne, ?_⟩, s.takeWhile Text.isBlank, isGap_takeWhile s, ?_⟩, ?_⟩
  · intro c hc
    rw [← hw] at hc
    simpa using List.mem_takeWhile_imp hc
  · rw [← hw, ← hrest, List.takeWhile_append_dropWhile, List.takeWhile_append_dropWhile]
  · rw [← hrest]
    exact after_word _

/-- Where a blank follows, a word is determined by its text. -/
theorem WordAt.unique (h : WordAt s w rest) (hend : StartsBlank rest) (h' : WordAt s w' rest')
    (hend' : StartsBlank rest') : w = w' ∧ rest = rest' :=
  Prod.mk.inj ((h.word_eq (Or.inr hend)).symm.trans (h'.word_eq (Or.inr hend')))

theorem WordAt.ne_nil (h : WordAt s w rest) : s ≠ [] := by
  obtain ⟨hword, gap, _, rfl⟩ := h
  exact List.append_ne_nil_of_right_ne_nil _ (List.append_ne_nil_of_left_ne_nil hword.ne_nil _)

/-! ## Keys -/

/-- A word that can be a key stands in a text: an equals sign follows it, possibly after a gap, and then
    the value. -/
def KeyAt (s key value : List Char) : Prop :=
  ∃ gap, IsGap gap ∧ WordAt s key (gap ++ '=' :: value)

theorem exists_last_equals (h : '=' ∈ s) : ∃ front back, s = front ++ '=' :: back ∧ '=' ∉ back := by
  obtain ⟨back, front, hsplit, hback⟩ := List.eq_append_cons_of_mem (List.mem_reverse.mpr h)
  refine ⟨front.reverse, back.reverse, ?_, fun hin => hback (List.mem_reverse.mp hin)⟩
  rw [← List.reverse_reverse s, hsplit]
  simp

theorem takeWhile_after_equals {after : List Char} (h : '=' ∉ after) (front : List Char) :
    ((front ++ '=' :: after).reverse.takeWhile (· != '=')).reverse = after := by
  have hrev : ∀ c ∈ after.reverse, (c != '=') = true := by
    intro c hc
    rw [bne_iff_ne]
    exact fun e => h (e ▸ List.mem_reverse.mp hc)
  rw [List.reverse_append, List.reverse_cons, List.append_assoc, List.takeWhile_append_of_pos hrev,
    List.singleton_append, List.takeWhile_cons_of_neg (by decide), List.append_nil, List.reverse_reverse]

/-- A word is cut at the equals sign after which there is no other, unless it starts there. -/
theorem cutAtLastEquals_append {after : List Char} (hafter : '=' ∉ after) :
    cutAtLastEquals (key ++ '=' :: after) = if key = [] then none else some (key, after) := by
  have hlen : (key ++ '=' :: after).length - after.length - 1 = key.length := by
    simp only [List.length_append, List.length_cons]
    omega
  have hless : after.length < (key ++ '=' :: after).length := by
    simp only [List.length_append, List.length_cons]
    omega
  unfold cutAtLastEquals
  simp only [takeWhile_after_equals hafter, hlen, List.take_left, hless, decide_true, Bool.true_and]
  cases key <;> rfl

/-- A key is cut off at an equals sign, and is not empty. -/
theorem of_cutAtLastEquals {after : List Char} (h : cutAtLastEquals w = some (key, after)) :
    key ≠ [] ∧ w = key ++ '=' :: after := by
  by_cases hin : '=' ∈ w
  · obtain ⟨front, back, rfl, hback⟩ := exists_last_equals hin
    rw [cutAtLastEquals_append hback] at h
    by_cases hfront : front = []
    · rw [if_pos hfront] at h
      cases h
    · rw [if_neg hfront] at h
      cases h
      exact ⟨hfront, rfl⟩
  · have hall : ∀ c ∈ w.reverse, (c != '=') = true := by
      intro c hc
      rw [bne_iff_ne]
      exact fun e => hin (e ▸ List.mem_reverse.mp hc)
    unfold cutAtLastEquals at h
    simp [List.takeWhile_eq_self_iff.mpr hall] at h

/-- A word with an equals sign after some characters is cut there or further on. -/
theorem exists_cutAtLastEquals (hkey : key ≠ []) (tail : List Char) :
    ∃ more after, cutAtLastEquals (key ++ '=' :: tail) = some (key ++ more, after) := by
  obtain ⟨more, after, hsplit, hafter⟩ := exists_last_equals (s := '=' :: tail) List.mem_cons_self
  refine ⟨more, after, ?_⟩
  rw [hsplit, ← List.append_assoc, cutAtLastEquals_append hafter,
    if_neg (List.append_ne_nil_of_left_ne_nil hkey _)]

/-! ## Platform, flavour, key and value -/

/-- A text is a platform, a flavour and a key with its value, with gaps between them. -/
def FieldsAt (s uplid ufid key value : List Char) : Prop :=
  ∃ s₁ s₂, WordAt s uplid s₁ ∧ StartsBlank s₁ ∧ WordAt s₁ ufid s₂ ∧ StartsBlank s₂ ∧ KeyAt s₂ key value

/-- What is read as the fields of a text are fields of it. -/
theorem fieldsAt_of_fields? (h : fields? s = some (uplid, ufid, key, value)) :
    FieldsAt s uplid ufid key value := by
  unfold fields? at h
  generalize h₁ : word (s.dropWhile Text.isBlank) = p₁ at h
  obtain ⟨u, s₁⟩ := p₁
  dsimp only at h
  generalize h₂ : word (s₁.dropWhile Text.isBlank) = p₂ at h
  obtain ⟨f, s₂⟩ := p₂
  dsimp only at h
  generalize h₃ : word (s₂.dropWhile Text.isBlank) = p₃ at h
  obtain ⟨third, s₃⟩ := p₃
  dsimp only at h
  by_cases hempty : (u.isEmpty || f.isEmpty || third.isEmpty) = true
  · rw [if_pos hempty] at h
    cases h
  rw [if_neg hempty] at h
  simp only [Bool.or_eq_true, List.isEmpty_iff, not_or] at hempty
  obtain ⟨⟨hu, hf⟩, hthird⟩ := hempty
  obtain ⟨hat₁, hend₁⟩ := wordAt_of_word h₁ hu
  obtain ⟨hat₂, hend₂⟩ := wordAt_of_word h₂ hf
  obtain ⟨hat₃, hend₃⟩ := wordAt_of_word h₃ hthird
  have hfields : ∀ {k v}, KeyAt s₂ k v → FieldsAt s u f k v := fun hkey =>
    ⟨s₁, s₂, hat₁, hend₁.resolve_left hat₂.ne_nil, hat₂, hend₂.resolve_left hat₃.ne_nil, hkey⟩
  split at h
  · -- An equals sign follows the third word.
    next value' hvalue =>
    cases h
    refine hfields ⟨s₃.takeWhile Text.isBlank, isGap_takeWhile s₃, ?_⟩
    rw [← hvalue, List.takeWhile_append_dropWhile]
    exact hat₃
  · -- The third word is cut.
    obtain ⟨⟨k, after⟩, hcut, hform⟩ := Option.map_eq_some_iff.mp h
    cases hform
    obtain ⟨hk, rfl⟩ := of_cutAtLastEquals hcut
    obtain ⟨hword, gap, hgap, hs₂⟩ := hat₃
    refine hfields ⟨[], fun _ hc => absurd hc List.not_mem_nil, ⟨hk, ?_⟩, gap, hgap, ?_⟩
    · exact fun c hc => hword.noBlank c (List.mem_append_left _ hc)
    · rw [hs₂]
      simp

/-- Where a text has fields, some are read: the same platform and flavour, and the longest key. -/
theorem exists_fields? (h : FieldsAt s uplid ufid key value) :
    ∃ more value', fields? s = some (uplid, ufid, key ++ more, value') := by
  obtain ⟨s₁, s₂, hat₁, hend₁, hat₂, hend₂, gap, hgap, hat₃⟩ := h
  have hu : uplid.isEmpty = false := by simpa using hat₁.1.ne_nil
  have hf : ufid.isEmpty = false := by simpa using hat₂.1.ne_nil
  unfold fields?
  rw [hat₁.word_eq (Or.inr hend₁)]
  dsimp only
  rw [hat₂.word_eq (Or.inr hend₂)]
  dsimp only
  cases gap with
  | cons c gap =>
    -- The key is the third word.
    have hk : key.isEmpty = false := by simpa using hat₃.1.ne_nil
    have hequals : ((c :: gap) ++ '=' :: value).dropWhile Text.isBlank = '=' :: value := by
      rw [List.dropWhile_append_of_pos hgap, List.dropWhile_cons_of_neg (by decide)]
    refine ⟨[], value, ?_⟩
    rw [hat₃.word_eq (Or.inr ⟨c, _, rfl, hgap c List.mem_cons_self⟩)]
    simp only [hu, hf, hk, Bool.or_self, Bool.false_eq_true, if_false, hequals, List.append_nil]
  | nil =>
    -- The third word goes on after the key up to the first blank.
    obtain ⟨hword, lead, hlead, hs₂⟩ := hat₃
    have hthird : WordAt s₂ (key ++ '=' :: value.takeWhile (fun c => !Text.isBlank c))
        (value.dropWhile (fun c => !Text.isBlank c)) := by
      refine ⟨⟨List.append_ne_nil_of_left_ne_nil hword.ne_nil _, ?_⟩, lead, hlead, ?_⟩
      · intro c hc
        rcases List.mem_append.mp hc with hc | hc
        · exact hword.noBlank c hc
        · rcases List.mem_cons.mp hc with rfl | hc
          · decide
          · simpa using List.mem_takeWhile_imp hc
      · rw [hs₂, List.append_assoc, List.cons_append, List.takeWhile_append_dropWhile]
        rfl
    have hk : (key ++ '=' :: value.takeWhile (fun c => !Text.isBlank c)).isEmpty = false := by simp
    rw [hthird.word_eq (after_word value)]
    simp only [hu, hf, hk, Bool.or_self, Bool.false_eq_true, if_false]
    split
    · exact ⟨_, _, rfl⟩
    · obtain ⟨more, after, hcut⟩ := exists_cutAtLastEquals hword.ne_nil
        (value.takeWhile (fun c => !Text.isBlank c))
      exact ⟨more, _, by rw [hcut]; rfl⟩

/-- The length of a key fixes it and its value. -/
theorem KeyAt.unique {key' value' : List Char} (h : KeyAt s key value) (h' : KeyAt s key' value')
    (hlen : key.length = key'.length) : key = key' ∧ value = value' := by
  obtain ⟨gap, hgap, hat⟩ := h
  obtain ⟨gap', hgap', hat'⟩ := h'
  obtain ⟨hkey, hrest⟩ := List.append_inj (hat.dropWhile_eq.symm.trans hat'.dropWhile_eq) hlen
  refine ⟨hkey, ?_⟩
  have hdrop := congrArg (List.dropWhile Text.isBlank) hrest
  rw [List.dropWhile_append_of_pos hgap, List.dropWhile_append_of_pos hgap',
    List.dropWhile_cons_of_neg (by decide), List.dropWhile_cons_of_neg (by decide)] at hdrop
  exact (List.cons.inj hdrop).2

/-- A text has one platform and one flavour, and the length of the key fixes the rest. -/
theorem FieldsAt.unique {uplid' ufid' key' value' : List Char} (h : FieldsAt s uplid ufid key value)
    (h' : FieldsAt s uplid' ufid' key' value') (hlen : key.length = key'.length) :
    uplid = uplid' ∧ ufid = ufid' ∧ key = key' ∧ value = value' := by
  obtain ⟨s₁, s₂, hat₁, hend₁, hat₂, hend₂, hkey⟩ := h
  obtain ⟨s₁', s₂', hat₁', hend₁', hat₂', hend₂', hkey'⟩ := h'
  obtain ⟨rfl, rfl⟩ := hat₁.unique hend₁ hat₁' hend₁'
  obtain ⟨rfl, rfl⟩ := hat₂.unique hend₂ hat₂' hend₂'
  exact ⟨rfl, rfl, hkey.unique hkey' hlen⟩

/-- No key of a text is longer than the one that is read. -/
theorem length_key_le {uplid' ufid' key' value' : List Char}
    (h : fields? s = some (uplid, ufid, key, value)) (h' : FieldsAt s uplid' ufid' key' value') :
    key'.length ≤ key.length := by
  obtain ⟨more, value'', hread⟩ := exists_fields? h'
  rw [h, Option.some.injEq, Prod.mk.injEq, Prod.mk.injEq, Prod.mk.injEq] at hread
  rw [hread.2.2.1, List.length_append]
  exact Nat.le_add_right _ _

/-- A gap before a word does not matter. -/
theorem wordAt_dropWhile_iff : WordAt (s.dropWhile Text.isBlank) w rest ↔ WordAt s w rest := by
  constructor
  · rintro ⟨hw, gap, hgap, hs⟩
    refine ⟨hw, s.takeWhile Text.isBlank ++ gap, ?_, ?_⟩
    · intro c hc
      exact (List.mem_append.mp hc).elim (isGap_takeWhile s c) (hgap c)
    · rw [List.append_assoc, ← hs, List.takeWhile_append_dropWhile]
  · intro h
    refine ⟨h.1, [], fun _ hc => absurd hc List.not_mem_nil, h.dropWhile_eq⟩

/-- A gap before the fields does not matter. -/
theorem fieldsAt_dropWhile_iff :
    FieldsAt (s.dropWhile Text.isBlank) uplid ufid key value ↔ FieldsAt s uplid ufid key value := by
  simp only [FieldsAt, wordAt_dropWhile_iff]

/-- A gap before a key does not matter. -/
theorem keyAt_dropWhile_iff : KeyAt (s.dropWhile Text.isBlank) key value ↔ KeyAt s key value := by
  simp only [KeyAt, wordAt_dropWhile_iff]

/-- A key of a text that no other is longer than. -/
def LongestKey (s key value : List Char) : Prop :=
  KeyAt s key value ∧ ∀ key' value', KeyAt s key' value' → key'.length ≤ key.length

/-- A text that has a key has a longest one. -/
theorem exists_longestKey {s key value : List Char} (h : KeyAt s key value) :
    ∃ key' value', LongestKey s key' value' := by
  by_cases hlongest : ∀ key' value', KeyAt s key' value' → key'.length ≤ key.length
  · exact ⟨key, value, h, hlongest⟩
  · simp only [not_forall, Nat.not_le] at hlongest
    obtain ⟨key', value', hlonger, hlt⟩ := hlongest
    have hle : key'.length ≤ s.length := by
      obtain ⟨gap, -, -, lead, -, rfl⟩ := hlonger
      simp only [List.length_append]
      omega
    exact exists_longestKey hlonger
termination_by s.length - key.length

/-! ## The ways to split a line -/

/-- The parts of a line that is read as a rule. -/
structure Split where
  command : Option Command
  uplid : List Char
  ufid : List Char
  key : List Char
  value : List Char
deriving Repr, DecidableEq

/-- A line can be split in this way: `[command] platform flavour key = value`. -/
def Splits (line : List Char) (p : Split) : Prop :=
  match p.command with
  | none => FieldsAt line p.uplid p.ufid p.key p.value
  | some c => ∃ gap rest, IsGap gap ∧ line = gap ++ (c.render.toList ++ rest) ∧
      FieldsAt rest p.uplid p.ufid p.key p.value

/-- One way to split a line comes before another: a command is seen wherever there can be one, and
    then the longer key is taken. -/
def Split.Before (p q : Split) : Prop :=
  p.command.isSome = true ∧ q.command = none ∨
    p.command.isSome = q.command.isSome ∧ q.key.length < p.key.length

/-- A way to split a line that no other comes before. -/
def FirstSplit (line : List Char) (p : Split) : Prop :=
  Splits line p ∧ ∀ q, Splits line q → ¬ q.Before p

/-- A command stands at the front of a text exactly if the text begins with how it is written. -/
theorem commandAt?_eq_some_iff {c : Command} :
    commandAt? s = some (c, rest) ↔ s = c.render.toList ++ rest := by
  constructor
  · intro h
    obtain ⟨c', hfind, hpair⟩ := Option.map_eq_some_iff.mp h
    cases hpair
    have hfront : c.render.toList.isPrefixOf s = true := by
      simpa only using List.find?_some hfind
    obtain ⟨tail, rfl⟩ := List.isPrefixOf_iff_prefix.mp hfront
    have hlen : c.render.toList.length = 2 := by cases c <;> rfl
    rw [← hlen, List.drop_left]
  · rintro rfl
    cases c <;> rfl

theorem dropWhile_command (c : Command) (rest : List Char) :
    (c.render.toList ++ rest).dropWhile Text.isBlank = c.render.toList ++ rest := by
  cases c <;> rfl

theorem noNewline_command (c : Command) : '\n' ∉ c.render.toList := by
  cases c <;> decide

/-- A line with a command splits where its command ends, and the fields follow. -/
theorem splits_some_iff {line : List Char} {c : Command} :
    Splits line ⟨some c, uplid, ufid, key, value⟩ ↔
      ∃ rest, commandAt? (line.dropWhile Text.isBlank) = some (c, rest) ∧
        FieldsAt rest uplid ufid key value := by
  constructor
  · rintro ⟨gap, rest, hgap, rfl, hfields⟩
    refine ⟨rest, ?_, hfields⟩
    rw [List.dropWhile_append_of_pos hgap, dropWhile_command, commandAt?_eq_some_iff]
  · rintro ⟨rest, hcommand, hfields⟩
    refine ⟨line.takeWhile Text.isBlank, rest, isGap_takeWhile line, ?_, hfields⟩
    rw [← commandAt?_eq_some_iff.mp hcommand, List.takeWhile_append_dropWhile]

theorem splits_none_iff {line : List Char} :
    Splits line ⟨none, uplid, ufid, key, value⟩ ↔
      FieldsAt (line.dropWhile Text.isBlank) uplid ufid key value := fieldsAt_dropWhile_iff.symm

/-- At most one way to split a line comes first. -/
theorem FirstSplit.unique {line : List Char} {p q : Split} (hp : FirstSplit line p)
    (hq : FirstSplit line q) :
    p = q := by
  have hcommand : p.command.isSome = q.command.isSome := by
    cases hpc : p.command <;> cases hqc : q.command
    · rfl
    · exact absurd (Or.inl ⟨by rw [hqc]; rfl, hpc⟩) (hp.2 q hq.1)
    · exact absurd (Or.inl ⟨by rw [hpc]; rfl, hqc⟩) (hq.2 p hp.1)
    · rfl
  have hlen : p.key.length = q.key.length := by
    refine Nat.le_antisymm (Nat.le_of_not_lt fun hlt => ?_) (Nat.le_of_not_lt fun hlt => ?_)
    · exact hq.2 p hp.1 (Or.inr ⟨hcommand, hlt⟩)
    · exact hp.2 q hq.1 (Or.inr ⟨hcommand.symm, hlt⟩)
  obtain ⟨c, u, f, k, v⟩ := p
  obtain ⟨c', u', f', k', v'⟩ := q
  have hsp := hp.1
  have hsq := hq.1
  cases c <;> cases c' <;> simp only [Option.isSome_none, Option.isSome_some, Bool.true_eq_false,
    Bool.false_eq_true] at hcommand
  · obtain ⟨rfl, rfl, rfl, rfl⟩ := (splits_none_iff.mp hsp).unique (splits_none_iff.mp hsq) hlen
    rfl
  · obtain ⟨rest, hc, hfields⟩ := splits_some_iff.mp hsp
    obtain ⟨rest', hc', hfields'⟩ := splits_some_iff.mp hsq
    rw [hc, Option.some.injEq, Prod.mk.injEq] at hc'
    obtain ⟨rfl, rfl⟩ := hc'
    obtain ⟨rfl, rfl, rfl, rfl⟩ := hfields.unique hfields' hlen
    rfl

/-- Where a line has a command, the first way to split it has the words after the command and the
    longest key. -/
theorem firstSplit_of_command {line gap s₁ s₂ : List Char} {c : Command} (hgap : IsGap gap)
    (hline : line = gap ++ (c.render.toList ++ rest)) (hat₁ : WordAt rest uplid s₁)
    (hend₁ : StartsBlank s₁) (hat₂ : WordAt s₁ ufid s₂) (hend₂ : StartsBlank s₂)
    (hkey : LongestKey s₂ key value) :
    FirstSplit line ⟨some c, uplid, ufid, key, value⟩ := by
  refine ⟨⟨gap, rest, hgap, hline, s₁, s₂, hat₁, hend₁, hat₂, hend₂, hkey.1⟩, ?_⟩
  rintro ⟨c', uplid', ufid', key', value'⟩ hother (⟨-, hnone⟩ | ⟨hsome, hlonger⟩)
  · cases hnone
  · obtain ⟨c', rfl⟩ := Option.isSome_iff_exists.mp hsome
    -- Both ways see the same command, and so the same words after it.
    obtain ⟨rest', hrest, s₁', s₂', hat₁', hend₁', hat₂', hend₂', hkey'⟩ := splits_some_iff.mp hother
    rw [hline, List.dropWhile_append_of_pos hgap, dropWhile_command,
      commandAt?_eq_some_iff.mpr rfl] at hrest
    obtain ⟨-, rfl⟩ := Prod.mk.inj (Option.some.inj hrest)
    obtain ⟨-, rfl⟩ := hat₁.unique hend₁ hat₁' hend₁'
    obtain ⟨-, rfl⟩ := hat₂.unique hend₂ hat₂' hend₂'
    exact absurd (hkey.2 key' value' hkey') (Nat.not_le.mpr hlonger)

/-! ## What the reader finds -/

/-- The form of a line that is split in this way: the value starts after the gap and goes on in the
    next line if it ends in a backslash. -/
def Split.form (p : Split) : LineForm :=
  { command := p.command.getD .add
    uplid := String.ofList p.uplid
    ufid := String.ofList p.ufid
    key := String.ofList p.key
    value := String.ofList (cutContinuation (p.value.dropWhile Text.isBlank)).1
    continued := (cutContinuation (p.value.dropWhile Text.isBlank)).2 }

/-- There is no form with a command exactly if no fields can be found behind it. -/
theorem formWith_eq_none_iff {c : Command} :
    formWith c s = none ↔ ∀ uplid ufid key value, ¬ FieldsAt s uplid ufid key value := by
  rw [formWith, Option.map_eq_none_iff]
  constructor
  · intro h uplid ufid key value hfields
    obtain ⟨more, value', hread⟩ := exists_fields? hfields
    rw [h] at hread
    cases hread
  · intro h
    cases hread : fields? s with
    | none => rfl
    | some p => exact absurd (fieldsAt_of_fields? hread) (h _ _ _ _)

theorem formWith_eq_some {c : Command} {form : LineForm} (h : formWith c s = some form) :
    ∃ uplid ufid key value, fields? s = some (uplid, ufid, key, value) ∧
      ∀ command : Option Command, command.getD .add = c →
        form = Split.form ⟨command, uplid, ufid, key, value⟩ := by
  obtain ⟨⟨uplid, ufid, key, value⟩, hread, hform⟩ := Option.map_eq_some_iff.mp h
  refine ⟨uplid, ufid, key, value, hread, ?_⟩
  rintro command rfl
  exact hform.symm

/-- **A line has no form if and only if it cannot be split.** -/
theorem lineForm?_eq_none_iff {line : String} : lineForm? line = none ↔ ∀ p, ¬ Splits line.toList p := by
  have hadd : formWith .add (line.toList.dropWhile Text.isBlank) = none ↔
      ∀ uplid ufid key value, ¬ Splits line.toList ⟨none, uplid, ufid, key, value⟩ := by
    simp only [formWith_eq_none_iff, splits_none_iff]
  have hsplit : (∀ p, ¬ Splits line.toList p) ↔
      (∀ c uplid ufid key value, ¬ Splits line.toList ⟨some c, uplid, ufid, key, value⟩) ∧
        ∀ uplid ufid key value, ¬ Splits line.toList ⟨none, uplid, ufid, key, value⟩ := by
    constructor
    · exact fun h => ⟨fun _ _ _ _ _ => h _, fun _ _ _ _ => h _⟩
    · rintro ⟨hsome, hnone⟩ ⟨_ | c, uplid, ufid, key, value⟩
      · exact hnone _ _ _ _
      · exact hsome _ _ _ _ _
  rw [hsplit, ← hadd]
  simp only [splits_some_iff]
  unfold lineForm?
  dsimp only
  cases hcommand : commandAt? (line.toList.dropWhile Text.isBlank) with
  | none => simp
  | some found =>
    obtain ⟨c, rest⟩ := found
    simp only [Option.some.injEq, Prod.mk.injEq, Option.orElse_eq_orElse, Option.orElse_eq_or,
      Option.or_eq_none_iff, formWith_eq_none_iff]
    refine and_congr_left fun _ => ⟨?_, ?_⟩
    · rintro h c' uplid ufid key value ⟨rest', ⟨rfl, rfl⟩, hfields⟩
      exact h _ _ _ _ hfields
    · exact fun h uplid ufid key value hfields => h c uplid ufid key value ⟨rest, ⟨rfl, rfl⟩, hfields⟩

/-- The form that the reader finds is that of the first way to split the line. -/
theorem exists_firstSplit {line : String} {form : LineForm} (h : lineForm? line = some form) :
    ∃ p, FirstSplit line.toList p ∧ form = p.form := by
  unfold lineForm? at h
  dsimp only at h
  -- Without a command the whole line holds the fields; this comes second where there is a command.
  have hplain : formWith .add (line.toList.dropWhile Text.isBlank) = some form →
      (∀ c uplid ufid key value, ¬ Splits line.toList ⟨some c, uplid, ufid, key, value⟩) →
      ∃ p, FirstSplit line.toList p ∧ form = p.form := by
    intro hform hnone
    obtain ⟨uplid, ufid, key, value, hread, heq⟩ := formWith_eq_some hform
    refine ⟨⟨none, uplid, ufid, key, value⟩, ⟨splits_none_iff.mpr (fieldsAt_of_fields? hread), ?_⟩,
      heq none rfl⟩
    rintro ⟨c, u, f, k, v⟩ hsplit (⟨hsome, _⟩ | ⟨hsame, hlt⟩)
    · obtain ⟨c, rfl⟩ := Option.isSome_iff_exists.mp hsome
      exact hnone _ _ _ _ _ hsplit
    · cases c with
      | some c => cases hsame
      | none => exact absurd (length_key_le hread (splits_none_iff.mp hsplit)) (Nat.not_le.mpr hlt)
  cases hcommand : commandAt? (line.toList.dropWhile Text.isBlank) with
  | none =>
    rw [hcommand] at h
    refine hplain h fun c uplid ufid key value hsplit => ?_
    obtain ⟨rest, hc, _⟩ := splits_some_iff.mp hsplit
    rw [hcommand] at hc
    cases hc
  | some found =>
    obtain ⟨c, rest⟩ := found
    rw [hcommand] at h
    dsimp only at h
    cases hform : formWith c rest with
    | none =>
      rw [hform] at h
      refine hplain h fun c' uplid ufid key value hsplit => ?_
      obtain ⟨rest', hc, hfields⟩ := splits_some_iff.mp hsplit
      rw [hcommand] at hc
      cases hc
      exact formWith_eq_none_iff.mp hform _ _ _ _ hfields
    | some form' =>
      rw [hform] at h
      cases h
      obtain ⟨uplid, ufid, key, value, hread, heq⟩ := formWith_eq_some hform
      refine ⟨⟨some c, uplid, ufid, key, value⟩,
        ⟨splits_some_iff.mpr ⟨rest, hcommand, fieldsAt_of_fields? hread⟩, ?_⟩, heq (some c) rfl⟩
      rintro ⟨c', u, f, k, v⟩ hsplit (⟨_, hnone⟩ | ⟨hsame, hlt⟩)
      · cases hnone
      · obtain ⟨c', rfl⟩ := Option.isSome_iff_exists.mp (hsame.trans rfl)
        obtain ⟨rest', hc, hfields⟩ := splits_some_iff.mp hsplit
        rw [hcommand] at hc
        cases hc
        exact absurd (length_key_le hread hfields) (Nat.not_le.mpr hlt)

/-- **The reader takes the first way to split a line.** -/
theorem lineForm?_eq_some_iff {line : String} {form : LineForm} :
    lineForm? line = some form ↔ ∃ p, FirstSplit line.toList p ∧ form = p.form := by
  refine ⟨exists_firstSplit, ?_⟩
  rintro ⟨p, hp, rfl⟩
  cases hform : lineForm? line with
  | none => exact absurd hp.1 (lineForm?_eq_none_iff.mp hform p)
  | some form =>
    obtain ⟨q, hq, rfl⟩ := exists_firstSplit hform
    rw [hp.unique hq]

end BuildMeta.Rule
