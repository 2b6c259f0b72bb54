import BuildMeta.Text.Cut
import BuildMeta.Text.ShellWords
import Mathlib.Data.List.DropRight
import Mathlib.Data.List.TakeWhile

/-!
# `Proofs.Text.Plain` — texts that readers leave as they are

A plain text has none of the characters that mean something to a reader of lines or words: no line ends,
comment signs, escapes, quotes or references.  Lines are found again in the text that they make up
(`fullLines_flatMap`), and so are plain words in the text that blanks join them to (`shellWords_join`,
`plainWords_join`).
-/

namespace BuildMeta.Text

/-- Characters that stand for themselves. -/
def isPlainChar (c : Char) : Bool := !(['\n', '\r', '#', '\\', '\'', '"', '$'].contains c)

/-- What is said of all characters of a text is decided by going through the text. -/
instance decidableForallMem {P : Char → Prop} [DecidablePred P] (s : List Char) :
    Decidable (∀ c ∈ s, P c) :=
  List.decidableBAll P s

/-- A text of plain characters without blanks at its ends. -/
structure PlainText (s : String) : Prop where
  ne_empty : s ≠ ""
  trimmed : trim s = s
  plain : ∀ c ∈ s.toList, isPlainChar c = true

/-- A text of characters that are no blanks. -/
structure Solid (s : String) : Prop where
  ne_empty : s ≠ ""
  noBlank : ∀ c ∈ s.toList, isBlank c = false

theorem Solid.noNewline {s : String} (h : Solid s) : '\n' ∉ s.toList := by
  intro hin
  exact absurd (h.noBlank _ hin) (by decide)

/-- A text of plain characters without blanks. -/
structure PlainWord (s : String) : Prop extends Solid s where
  plain : ∀ c ∈ s.toList, isPlainChar c = true

instance : DecidablePred PlainText := fun s =>
  decidable_of_iff (s ≠ "" ∧ trim s = s ∧ ∀ c ∈ s.toList, isPlainChar c = true)
    ⟨fun ⟨h₁, h₂, h₃⟩ => ⟨h₁, h₂, h₃⟩, fun ⟨h₁, h₂, h₃⟩ => ⟨h₁, h₂, h₃⟩⟩

instance : DecidablePred PlainWord := fun s =>
  decidable_of_iff (s ≠ "" ∧ (∀ c ∈ s.toList, isBlank c = false) ∧ ∀ c ∈ s.toList, isPlainChar c = true)
    ⟨fun ⟨h₁, h₂, h₃⟩ => ⟨⟨h₁, h₂⟩, h₃⟩, fun ⟨⟨h₁, h₂⟩, h₃⟩ => ⟨h₁, h₂, h₃⟩⟩

instance : DecidablePred Solid := fun s =>
  decidable_of_iff (s ≠ "" ∧ ∀ c ∈ s.toList, isBlank c = false)
    ⟨fun ⟨h₁, h₂⟩ => ⟨h₁, h₂⟩, fun ⟨h₁, h₂⟩ => ⟨h₁, h₂⟩⟩

variable {p : Char → Bool} {s line rest : List Char} {w : String} {ws : List String}

theorem isPlainChar_iff {c : Char} : isPlainChar c = true ↔
    c ≠ '\n' ∧ c ≠ '\r' ∧ c ≠ '#' ∧ c ≠ '\\' ∧ c ≠ '\'' ∧ c ≠ '"' ∧ c ≠ '$' := by
  simp [isPlainChar]

/-! ## Trimming -/

theorem trimEndWhile_append_of_pos {gap : List Char} (h : ∀ c ∈ gap, p c = true) :
    trimEndWhile p (s ++ gap) = trimEndWhile p s := by
  unfold trimEndWhile
  rw [List.reverse_append, List.dropWhile_append_of_pos]
  exact fun c hc => h c (List.mem_reverse.mp hc)

theorem trimEndWhile_isPrefix (p : Char → Bool) (s : List Char) : trimEndWhile p s <+: s :=
  List.rdropWhile_prefix p s

/-- Trimming changes nothing at either end of a trimmed text. -/
theorem of_trimWhile_eq_self (h : trimWhile p s = s) : s.dropWhile p = s ∧ trimEndWhile p s = s := by
  have hfront : s.dropWhile p = s := by
    refine (List.dropWhile_suffix p).eq_of_length_le ?_
    have hle := (trimEndWhile_isPrefix p (s.dropWhile p)).length_le
    rwa [show trimEndWhile p (s.dropWhile p) = s from h] at hle
  refine ⟨hfront, ?_⟩
  unfold trimWhile at h
  rwa [hfront] at h

theorem dropWhile_eq_self_of_neg (h : ∀ c ∈ s, p c = false) : s.dropWhile p = s := by
  refine List.dropWhile_eq_self_iff.mpr fun hl => ?_
  rw [h _ (List.getElem_mem hl)]
  decide

theorem trimEndWhile_eq_self_of_neg (h : ∀ c ∈ s, p c = false) : trimEndWhile p s = s := by
  refine List.rdropWhile_eq_self_iff.mpr fun hl => ?_
  rw [h _ (List.getLast_mem hl)]
  decide

/-- Whether the end is trimmed is decided at the end. -/
theorem trimEndWhile_append_of_ne_nil (h : trimEndWhile p s = s) (hs : s ≠ []) (front : List Char) :
    trimEndWhile p (front ++ s) = front ++ s := by
  refine List.rdropWhile_eq_self_iff.mpr fun hl => ?_
  rw [List.getLast_append_of_ne_nil hl hs]
  exact List.rdropWhile_eq_self_iff.mp h hs

theorem takeWhile_ne_of_not_mem {c : Char} (h : c ∉ s) : s.takeWhile (· != c) = s := by
  refine List.takeWhile_eq_self_iff.mpr fun d hd => ?_
  rw [bne_iff_ne]
  exact fun e => h (e ▸ hd)

theorem takeWhile_eq_nil_of_stop (h : ∀ c ∈ s.head?, p c = false) : s.takeWhile p = [] := by
  cases s with
  | nil => rfl
  | cons c rest => simp [h c rfl]

/-- The front of a text is taken whole, if it is of a class and the class stops behind it. -/
theorem takeWhile_append_stop (h : ∀ c ∈ s, p c = true) (hrest : ∀ c ∈ rest.head?, p c = false) :
    (s ++ rest).takeWhile p = s := by
  rw [List.takeWhile_append_of_pos h, takeWhile_eq_nil_of_stop hrest, List.append_nil]

/-- A class that neither of two texts begins with stops before both of them. -/
theorem head?_append_stop (h : ∀ c ∈ s.head?, p c = false) (hrest : ∀ c ∈ rest.head?, p c = false) :
    ∀ c ∈ (s ++ rest).head?, p c = false := by
  cases s with
  | nil => exact hrest
  | cons c s => exact h

theorem toList_ne_nil (h : w ≠ "") : w.toList ≠ [] := fun hnil => h (String.toList_inj.mp hnil)

theorem trim_eq_self_iff {s : String} : trim s = s ↔ trimWhile isBlank s.toList = s.toList := by
  rw [trim, ← String.toList_inj, String.toList_ofList]

/-- A text is trimmed if it starts with a solid text and its end is trimmed. -/
theorem trim_append {front back : String} (hfront : Solid front)
    (hend : trimEndWhile isBlank (front ++ back).toList = (front ++ back).toList) :
    trim (front ++ back) = front ++ back := by
  obtain ⟨c, rest, hc⟩ := List.exists_cons_of_ne_nil (toList_ne_nil hfront.ne_empty)
  have hblank : isBlank c = false := hfront.noBlank c (hc ▸ List.mem_cons_self)
  have hdrop : (front ++ back).toList.dropWhile isBlank = (front ++ back).toList := by
    rw [String.toList_append, hc, List.cons_append, List.dropWhile_cons_of_neg (by simp [hblank])]
  rw [trim_eq_self_iff, trimWhile, hdrop, hend]

theorem of_trim_eq_self (h : trim w = w) :
    w.toList.dropWhile isBlank = w.toList ∧ trimEndWhile isBlank w.toList = w.toList :=
  of_trimWhile_eq_self (trim_eq_self_iff.mp h)

theorem Solid.trimmed (h : Solid w) : trim w = w := by
  rw [trim_eq_self_iff, trimWhile, dropWhile_eq_self_of_neg h.noBlank,
    trimEndWhile_eq_self_of_neg h.noBlank]

theorem PlainWord.plainText (h : PlainWord w) : PlainText w := ⟨h.ne_empty, h.trimmed, h.plain⟩

/-- Solid words can be put together. -/
theorem Solid.append {v : String} (h : Solid w) (h' : Solid v) : Solid (w ++ v) where
  ne_empty := by
    intro hempty
    have hnil : w.toList ++ v.toList = [] := by
      rw [← String.toList_append, hempty]
      rfl
    exact toList_ne_nil h.ne_empty (List.append_eq_nil_iff.mp hnil).1
  noBlank := by
    intro c hc
    rw [String.toList_append, List.mem_append] at hc
    exact hc.elim (h.noBlank c) (h'.noBlank c)

theorem PlainWord.append {v : String} (h : PlainWord w) (h' : PlainWord v) : PlainWord (w ++ v) where
  toSolid := h.toSolid.append h'.toSolid
  plain := by
    intro c hc
    rw [String.toList_append, List.mem_append] at hc
    exact hc.elim (h.plain c) (h'.plain c)

theorem PlainText.not_mem (h : PlainText w) {c : Char} (hc : isPlainChar c = false) : c ∉ w.toList := by
  intro hin
  rw [h.plain c hin] at hc
  cases hc

/-! ## Lines -/

/-- A text that can be part of a line which is neither continued nor commented. -/
def LineText (s : String) : Prop := ∀ c ∈ s.toList, c ≠ '\n' ∧ c ≠ '\r' ∧ c ≠ '#' ∧ c ≠ '\\'

instance : DecidablePred LineText := fun s =>
  inferInstanceAs (Decidable (∀ c ∈ s.toList, c ≠ '\n' ∧ c ≠ '\r' ∧ c ≠ '#' ∧ c ≠ '\\'))

theorem LineText.append {v : String} (h : LineText w) (h' : LineText v) : LineText (w ++ v) := by
  intro c hc
  rw [String.toList_append, List.mem_append] at hc
  exact hc.elim (h c) (h' c)

theorem PlainText.lineText (h : PlainText w) : LineText w := by
  intro c hc
  obtain ⟨hline, hreturn, hcomment, hescape, _⟩ := isPlainChar_iff.mp (h.plain c hc)
  exact ⟨hline, hreturn, hcomment, hescape⟩

/-- A word that can be part of such a line. -/
structure LineWord (s : String) : Prop extends Solid s where
  line : LineText s

instance : DecidablePred LineWord := fun s =>
  decidable_of_iff (Solid s ∧ LineText s) ⟨fun ⟨h₁, h₂⟩ => ⟨h₁, h₂⟩, fun ⟨h₁, h₂⟩ => ⟨h₁, h₂⟩⟩

theorem LineWord.append {v : String} (h : LineWord w) (h' : LineWord v) : LineWord (w ++ v) :=
  ⟨h.toSolid.append h'.toSolid, h.line.append h'.line⟩

theorem PlainWord.lineWord (h : PlainWord w) : LineWord w := ⟨h.toSolid, h.plainText.lineText⟩

/-- A text that such a line can end in. -/
structure LineValue (s : String) : Prop where
  ne_empty : s ≠ ""
  trimmed : trim s = s
  line : LineText s

theorem PlainText.lineValue (h : PlainText w) : LineValue w := ⟨h.ne_empty, h.trimmed, h.lineText⟩

theorem LineWord.lineValue (h : LineWord w) : LineValue w := ⟨h.ne_empty, h.trimmed, h.line⟩

theorem LineValue.trimEndWhile_append (h : LineValue w) (front : String) :
    trimEndWhile isBlank (front ++ w).toList = (front ++ w).toList := by
  rw [String.toList_append]
  exact trimEndWhile_append_of_ne_nil (of_trim_eq_self h.trimmed).2 (toList_ne_nil h.ne_empty) _

/-- The first line of a text ends with its line end. -/
theorem linesFront_append (h : '\n' ∉ line) :
    linesFront (line ++ '\n' :: rest) = (line ++ ['\n'], fullLines rest) := by
  induction line with
  | nil => rfl
  | cons c line ih =>
    have hc : (c == '\n') = false := beq_false_of_ne fun e => h (e ▸ List.mem_cons_self)
    rw [List.cons_append, linesFront, ih fun hin => h (List.mem_cons_of_mem _ hin)]
    simp only [hc]
    rfl

/-- The lines of a text are those that it is made up of. -/
theorem fullLines_flatMap {ls : List (List Char)} (h : ∀ l ∈ ls, '\n' ∉ l) :
    fullLines (ls.flatMap (· ++ ['\n'])) = ls.map (· ++ ['\n']) := by
  induction ls with
  | nil => rfl
  | cons l rest ih =>
    have hrest := ih fun m hm => h m (List.mem_cons_of_mem _ hm)
    rw [List.flatMap_cons, List.append_assoc, List.singleton_append, fullLines,
      linesFront_append (h l List.mem_cons_self), hrest, List.map_cons]
    simp

theorem unifyNewlines_eq_self (h : '\r' ∉ s) : unifyNewlines s = s := by
  fun_induction unifyNewlines s with
  | case1 => rfl
  | case2 rest ih => exact absurd List.mem_cons_self h
  | case3 c rest hne ih =>
    have hc : (c == '\r') = false := beq_false_of_ne fun e => h (e ▸ List.mem_cons_self)
    rw [hc, ih fun hin => h (List.mem_cons_of_mem _ hin)]
    rfl

/-! ## Words -/

theorem isBlank_of_isWordGap {c : Char} (h : isWordGap c = true) : isBlank c = true := by
  simp only [isWordGap, List.contains_iff_mem, List.mem_cons, List.not_mem_nil, or_false] at h
  rcases h with rfl | rfl | rfl | rfl <;> rfl

/-- No character of a plain word means anything to a reader of words. -/
theorem PlainWord.not_special (h : PlainWord w) {c : Char} (hc : c ∈ w.toList) :
    isWordGap c = false ∧ (c == '\\') = false ∧ isQuote c = false := by
  obtain ⟨_, _, _, hescape, hsingle, hdouble, _⟩ := isPlainChar_iff.mp (h.plain c hc)
  refine ⟨?_, by simpa using hescape, by simp [isQuote, hsingle, hdouble]⟩
  rw [← Bool.not_eq_true]
  intro hgap
  have hblank := isBlank_of_isWordGap hgap
  rw [h.noBlank c hc] at hblank
  cases hblank

theorem toList_join_singleton (sep w : String) : (join sep [w]).toList = w.toList := by
  rw [join, String.toList_intercalate, List.map_singleton, List.intercalate_singleton]

theorem toList_join_cons_cons (sep w v : String) (ws : List String) :
    (join sep (w :: v :: ws)).toList = w.toList ++ (sep.toList ++ (join sep (v :: ws)).toList) := by
  rw [join, join, String.toList_intercalate, String.toList_intercalate, List.map_cons, List.map_cons,
    List.intercalate_cons_cons, List.append_assoc]

/-- To show something of the text to which blanks join words, it is enough to show it for no word,
    for the last word, and for a word before others. -/
theorem join_induction {Q : String → Prop} {P : List Char → List String → Prop} (hnil : P [] [])
    (hlast : ∀ w, Q w → P w.toList [w])
    (hmore : ∀ w v rest ws, Q w → Q v → P (v.toList ++ rest) (v :: ws) →
      P (w.toList ++ ' ' :: (v.toList ++ rest)) (w :: v :: ws))
    (h : ∀ w ∈ ws, Q w) : P (join " " ws).toList ws := by
  -- What follows the first word is what the induction has to say something about.
  have hfront : ∀ w ws, (∀ v ∈ w :: ws, Q v) →
      ∃ rest, (join " " (w :: ws)).toList = w.toList ++ rest ∧ P (w.toList ++ rest) (w :: ws) := by
    intro w ws
    induction ws generalizing w with
    | nil =>
      intro h
      refine ⟨[], ?_, ?_⟩
      · rw [toList_join_singleton, List.append_nil]
      · rw [List.append_nil]
        exact hlast w (h w List.mem_cons_self)
    | cons v more ih =>
      intro h
      obtain ⟨rest, hjoin, hrest⟩ := ih v fun u hu => h u (List.mem_cons_of_mem _ hu)
      refine ⟨' ' :: (v.toList ++ rest), ?_, ?_⟩
      · rw [← hjoin, toList_join_cons_cons]
        rfl
      · exact hmore w v rest more (h w List.mem_cons_self)
          (h v (List.mem_cons_of_mem _ List.mem_cons_self)) hrest
  cases ws with
  | nil => exact hnil
  | cons w ws =>
    obtain ⟨rest, hjoin, hrest⟩ := hfront w ws h
    rwa [hjoin]

/-- Words for a line make a line when they are joined by blanks. -/
theorem LineText.join (h : ∀ w ∈ ws, LineText w) : LineText (join " " ws) := by
  refine join_induction (Q := LineText)
    (P := fun s _ => ∀ c ∈ s, c ≠ '\n' ∧ c ≠ '\r' ∧ c ≠ '#' ∧ c ≠ '\\')
    (fun c hc => absurd hc List.not_mem_nil) (fun w hw => hw) ?_ h
  intro w v rest ws hw _ hrest c hc
  rw [List.mem_append, List.mem_cons] at hc
  rcases hc with hc | rfl | hc
  · exact hw c hc
  · decide
  · exact hrest c hc

/-- Words go on after a blank. -/
theorem join_append {sep : String} {vs : List String} (hws : ws ≠ []) (hvs : vs ≠ []) :
    join sep (ws ++ vs) = join sep ws ++ sep ++ join sep vs := by
  obtain ⟨v, vs, rfl⟩ := List.exists_cons_of_ne_nil hvs
  unfold join
  induction ws with
  | nil => exact absurd rfl hws
  | cons w rest ih =>
    cases rest with
    | nil => rw [List.singleton_append, String.intercalate_cons_cons, String.intercalate_singleton]
    | cons u more =>
      rw [List.cons_append, List.cons_append, String.intercalate_cons_cons, ← List.cons_append,
        ih (List.cons_ne_nil _ _), String.intercalate_cons_cons]
      simp only [String.append_assoc]

/-- Joined solid words end in a character that is no blank. -/
theorem trimEndWhile_join (hws : ws ≠ []) (h : ∀ w ∈ ws, Solid w) :
    trimEndWhile isBlank (join " " ws).toList = (join " " ws).toList := by
  obtain ⟨front, last, rfl⟩ := (List.eq_nil_or_concat' ws).resolve_left hws
  have hlast : Solid last := h last (List.mem_append_right _ List.mem_cons_self)
  have htrim := trimEndWhile_eq_self_of_neg hlast.noBlank
  by_cases hfront : front = []
  · rw [hfront]
    exact htrim
  · rw [join_append hfront (List.cons_ne_nil _ _), String.toList_append]
    exact trimEndWhile_append_of_ne_nil htrim (toList_ne_nil hlast.ne_empty) _

theorem join_cons (w : String) (ws : List String) : join " " (w :: ws) = w ++ join " " ("" :: ws) := by
  unfold join
  rw [← String.intercalate_cons_append, String.append_empty]

theorem join_ne_empty (hw : w ≠ "") : join " " (w :: ws) ≠ "" := by
  intro hempty
  rw [join_cons] at hempty
  exact hw (String.append_eq_empty_iff.mp hempty).1

theorem trim_join (hws : ws ≠ []) (h : ∀ w ∈ ws, Solid w) : trim (join " " ws) = join " " ws := by
  have hend := trimEndWhile_join hws h
  obtain ⟨w, rest, rfl⟩ := List.exists_cons_of_ne_nil hws
  rw [join_cons] at hend ⊢
  exact trim_append (h w List.mem_cons_self) hend

/-- What follows a blank after joined words is trimmed, if it is nothing. -/
theorem trimEndWhile_spread (ws vs : List String) (hws : ws ≠ []) (h : ∀ w ∈ ws, Solid w)
    (h' : ∀ v ∈ vs, Solid v) :
    trimEndWhile isBlank (join " " ws ++ " " ++ join " " vs).toList = (join " " (ws ++ vs)).toList := by
  by_cases hvs : vs = []
  · have hgap : (join " " ws ++ " " ++ join " " vs).toList = (join " " ws).toList ++ [' '] := by
      rw [hvs, String.toList_append, String.toList_append]
      exact List.append_nil _
    rw [hgap, trimEndWhile_append_of_pos (by decide), trimEndWhile_join hws h, hvs, List.append_nil]
  · have hall : ∀ w ∈ ws ++ vs, Solid w := fun w hw => (List.mem_append.mp hw).elim (h w) (h' w)
    rw [← join_append hws hvs, trimEndWhile_join (List.append_ne_nil_of_left_ne_nil hws _) hall]

/-- A reader takes a plain word as a whole. -/
theorem shellWordsFrom_word {chars word : List Char}
    (h : ∀ c ∈ chars, isWordGap c = false ∧ (c == '\\') = false ∧ isQuote c = false) :
    shellWordsFrom .word word (chars ++ rest) = shellWordsFrom .word (chars.reverse ++ word) rest := by
  induction chars generalizing word with
  | nil => rfl
  | cons c chars ih =>
    obtain ⟨hgap, hescape, hquote⟩ := h c List.mem_cons_self
    rw [List.cons_append, shellWordsFrom]
    simp only [hgap, hescape, hquote, Bool.false_eq_true, if_false]
    rw [ih fun d hd => h d (List.mem_cons_of_mem _ hd), List.reverse_cons, List.append_assoc,
      List.singleton_append]

/-- A plain word begins where a gap ends. -/
theorem shellWordsFrom_gap (h : PlainWord w) :
    shellWordsFrom .gap [] (w.toList ++ rest) = shellWordsFrom .word w.toList.reverse rest := by
  obtain ⟨c, chars, hw⟩ := List.exists_cons_of_ne_nil (toList_ne_nil h.ne_empty)
  have hspecial : ∀ d ∈ c :: chars, isWordGap d = false ∧ (d == '\\') = false ∧ isQuote d = false :=
    fun d hd => h.not_special (hw ▸ hd)
  obtain ⟨hgap, hescape, hquote⟩ := hspecial c List.mem_cons_self
  rw [hw, List.cons_append, shellWordsFrom]
  simp only [hgap, hescape, hquote, Bool.false_eq_true, if_false]
  rw [shellWordsFrom_word fun d hd => hspecial d (List.mem_cons_of_mem _ hd), List.reverse_cons]

/-- **Plain words that blanks join are the words of the text**, in the shell's way. -/
theorem shellWords_join (h : ∀ w ∈ ws, PlainWord w) : shellWords (join " " ws) = .ok ws := by
  have hlists : shellWordsFrom .gap [] (join " " ws).toList = .ok (ws.map String.toList) := by
    refine join_induction (P := fun s ws => shellWordsFrom .gap [] s = .ok (ws.map String.toList)) rfl
      ?_ ?_ h
    · intro w hw
      rw [← List.append_nil w.toList, shellWordsFrom_gap hw, shellWordsFrom, List.reverse_reverse]
      rfl
    · intro w v rest ws hw _ hrest
      rw [shellWordsFrom_gap hw, shellWordsFrom, if_pos (by decide), hrest, List.reverse_reverse]
      rfl
  unfold shellWords
  rw [hlists]
  show Except.ok ((ws.map String.toList).map String.ofList) = _
  simp

/-- Inside a word a blank ends it, and any other character belongs to it. -/
theorem plainWordsFrom_word_cons (word : List Char) (c : Char) (rest : List Char) :
    plainWordsFrom .word word (c :: rest)
      = if isWordGap c then (do return word.reverse :: (← plainWordsFrom .gap [] rest))
        else plainWordsFrom .word (c :: word) rest := rfl

/-- A word goes on as long as there is no gap. -/
theorem plainWordsFrom_word {chars word : List Char} (h : ∀ c ∈ chars, isWordGap c = false) :
    plainWordsFrom .word word (chars ++ rest) = plainWordsFrom .word (chars.reverse ++ word) rest := by
  induction chars generalizing word with
  | nil => rfl
  | cons c chars ih =>
    rw [List.cons_append, plainWordsFrom_word_cons]
    simp only [h c List.mem_cons_self, Bool.false_eq_true, if_false]
    rw [ih fun d hd => h d (List.mem_cons_of_mem _ hd), List.reverse_cons, List.append_assoc,
      List.singleton_append]

/-- A plain word begins where a gap ends, also where quotes mean nothing. -/
theorem plainWordsFrom_gap (h : PlainWord w) :
    plainWordsFrom .gap [] (w.toList ++ rest) = plainWordsFrom .word w.toList.reverse rest := by
  obtain ⟨c, chars, hw⟩ := List.exists_cons_of_ne_nil (toList_ne_nil h.ne_empty)
  have hspecial : ∀ d ∈ c :: chars, isWordGap d = false ∧ (d == '\\') = false ∧ isQuote d = false :=
    fun d hd => h.not_special (hw ▸ hd)
  obtain ⟨hgap, _, hquote⟩ := hspecial c List.mem_cons_self
  have hread : plainWordsFrom .gap [] (c :: (chars ++ rest))
      = if isWordGap c then plainWordsFrom .gap [] (chars ++ rest)
        else if isQuote c then plainWordsFrom (.quoted c) [c] (chars ++ rest)
        else plainWordsFrom .word [c] (chars ++ rest) := rfl
  simp only [hgap, hquote, Bool.false_eq_true, if_false] at hread
  rw [hw, List.cons_append, hread,
    plainWordsFrom_word fun d hd => (hspecial d (List.mem_cons_of_mem _ hd)).1, List.reverse_cons]

/-- **Plain words that blanks join are the words of the text**, in the plain way. -/
theorem plainWords_join (h : ∀ w ∈ ws, PlainWord w) : plainWords (join " " ws) = .ok ws := by
  have hlists : plainWordsFrom .gap [] (join " " ws).toList = .ok (ws.map String.toList) := by
    refine join_induction (P := fun s ws => plainWordsFrom .gap [] s = .ok (ws.map String.toList)) rfl
      ?_ ?_ h
    · intro w hw
      have hne : w.toList.reverse.isEmpty = false := by
        simpa using toList_ne_nil hw.ne_empty
      have hlast : plainWordsFrom .word w.toList.reverse []
          = .ok (if w.toList.reverse.isEmpty then [] else [w.toList.reverse.reverse]) := rfl
      rw [← List.append_nil w.toList, plainWordsFrom_gap hw, hlast, hne, List.reverse_reverse]
      rfl
    · intro w v rest ws hw _ hrest
      rw [plainWordsFrom_gap hw, plainWordsFrom_word_cons, if_pos (by decide), hrest,
        List.reverse_reverse]
      rfl
  unfold plainWords
  rw [hlists]
  show Except.ok ((ws.map String.toList).map String.ofList) = _
  simp

/-- What holds no separating character is one word. -/
theorem runsOutside_of_clean {p : Char → Bool} {s : List Char} (hne : s ≠ [])
    (hs : ∀ c ∈ s, p c = false) :
    runsOutside p s = [s] := by
  have hfront : ∀ s : List Char, (∀ c ∈ s, p c = false) → wordsFront p s = (s, []) := by
    intro s hs
    induction s with
    | nil => rfl
    | cons c rest ih =>
      rw [wordsFront, ih fun d hd => hs d (List.mem_cons_of_mem _ hd)]
      simp [hs c List.mem_cons_self]
  unfold runsOutside
  rw [hfront s hs]
  simp [hne]

theorem words_of_solid (h : Solid w) : words w = [w] := by
  rw [words, runsOutside_of_clean (toList_ne_nil h.ne_empty) h.noBlank]
  simp

theorem words_of_plainWord (h : PlainWord w) : words w = [w] := words_of_solid h.toSolid

end BuildMeta.Text
