import BuildMeta.Proofs.Text.Plain

/-!
# `Proofs.Text.Cut` — cutting at separators and line ends

Parts that hold no separator are found again in the text that the separator joins them to
(`split_join`), and so are lines (`lines_join`).  In turn the parts of a text hold no separator
(`mem_split`), and its lines no line end (`not_mem_of_mem_lines`).
-/

namespace BuildMeta.Text

/-! ## Separators -/

/-- Splitting undoes joining. -/
theorem split_join {sep : Char} {ws : List String} (hne : ws ≠ []) (h : ∀ w ∈ ws, sep ∉ w.toList) :
    split sep (join (String.singleton sep) ws) = ws := by
  have hparts : ∀ l ∈ ws.map String.toList, sep ∉ l := by
    intro l hl
    obtain ⟨w, hw, rfl⟩ := List.mem_map.mp hl
    exact h w hw
  rw [split, join, String.toList_intercalate, String.toList_singleton,
    List.splitOn_intercalate sep hparts (by simpa using hne), List.map_map]
  exact List.map_id'' (fun _ => String.ofList_toList) ws

/-- A part of a text holds characters of the text other than the separator. -/
theorem mem_splitOn {sep c : Char} {s part : List Char} (h : part ∈ s.splitOn sep) (hc : c ∈ part) :
    c ∈ s ∧ c ≠ sep := by
  rw [List.splitOn_eq_splitOnP] at h
  induction s generalizing part with
  | nil =>
    rw [List.splitOnP_nil, List.mem_singleton] at h
    rw [h] at hc
    cases hc
  | cons d s ih =>
    rw [List.splitOnP_cons_eq_if_modifyHead] at h
    split at h
    · rcases List.mem_cons.mp h with rfl | h
      · cases hc
      · exact (ih h hc).imp_left (List.mem_cons_of_mem _)
    · next hd =>
      obtain ⟨first, more, hparts⟩ := List.exists_cons_of_ne_nil (List.splitOnP_ne_nil (· == sep) s)
      rw [hparts] at h ih
      rcases List.mem_cons.mp h with rfl | h
      · rcases List.mem_cons.mp hc with rfl | hc
        · exact ⟨List.mem_cons_self, by simpa using hd⟩
        · exact (ih List.mem_cons_self hc).imp_left (List.mem_cons_of_mem _)
      · exact (ih (List.mem_cons_of_mem _ h) hc).imp_left (List.mem_cons_of_mem _)

/-- The parts of a text are made of its characters other than the separator. -/
theorem mem_split {sep c : Char} {s part : String} (h : part ∈ split sep s) (hc : c ∈ part.toList) :
    c ∈ s.toList ∧ c ≠ sep := by
  obtain ⟨l, hl, rfl⟩ := List.mem_map.mp h
  rw [String.toList_ofList] at hc
  exact mem_splitOn hl hc

/-- What is joined is made of the members and the separator. -/
theorem mem_join {sep : String} {ws : List String} {c : Char} (h : c ∈ (join sep ws).toList) :
    c ∈ sep.toList ∨ ∃ w ∈ ws, c ∈ w.toList := by
  unfold join at h
  induction ws with
  | nil => cases h
  | cons w ws ih =>
    cases ws with
    | nil =>
      rw [String.intercalate_singleton] at h
      exact Or.inr ⟨w, List.mem_cons_self, h⟩
    | cons v ws =>
      rw [String.intercalate_cons_cons, String.toList_append, String.toList_append, List.append_assoc,
        List.mem_append, List.mem_append] at h
      rcases h with h | h | h
      · exact Or.inr ⟨w, List.mem_cons_self, h⟩
      · exact Or.inl h
      · exact (ih h).imp_right fun ⟨u, hu, hc⟩ => ⟨u, List.mem_cons_of_mem _ hu, hc⟩

/-- Words that are joined without blanks are a word. -/
theorem solid_join (sep : Char) {ws : List String} (hsep : isBlank sep = false) (hne : ws ≠ [])
    (h : ∀ w ∈ ws, Solid w) : Solid (join (String.singleton sep) ws) where
  ne_empty := by
    obtain ⟨w, ws, rfl⟩ := List.exists_cons_of_ne_nil hne
    have hw := (h w List.mem_cons_self).ne_empty
    unfold join
    cases ws with
    | nil => rwa [String.intercalate_singleton]
    | cons v ws =>
      rw [String.intercalate_cons_cons, String.append_assoc]
      exact fun hempty => hw (String.append_eq_empty_iff.mp hempty).1
  noBlank := by
    intro c hc
    rcases mem_join hc with hin | ⟨w, hw, hin⟩
    · rw [String.toList_singleton, List.mem_singleton] at hin
      rw [hin, hsep]
    · exact (h w hw).noBlank c hin

/-! ## Words -/

/-- What stands before a separating character is read as if the text ended there. -/
theorem wordsFront_append {p : Char → Bool} {c : Char} (hc : p c = true) (s t : List Char) :
    wordsFront p (s ++ c :: t) = ((wordsFront p s).1, (wordsFront p s).2 ++ runsOutside p t) := by
  induction s with
  | nil =>
    show wordsFront p (c :: t) = ([], runsOutside p t)
    rw [wordsFront]
    simp only [hc, if_true]
    rfl
  | cons d s ih =>
    rw [List.cons_append, wordsFront, ih, wordsFront]
    by_cases hd : p d = true
    · by_cases hw : (wordsFront p s).1.isEmpty = true
      · simp [hd, hw]
      · simp [hd, hw]
    · simp [hd]

theorem runsOutside_append {p : Char → Bool} {c : Char} (hc : p c = true) (s t : List Char) :
    runsOutside p (s ++ c :: t) = runsOutside p s ++ runsOutside p t := by
  rw [runsOutside, wordsFront_append hc]
  by_cases hw : (wordsFront p s).1.isEmpty = true
  · simp only [runsOutside, hw, if_true]
  · simp only [runsOutside, hw]
    rfl

/-- A word stands in a text: it holds no separating character, and there is one or nothing on either
    side of it. -/
structure Stands (p : Char → Bool) (w s : List Char) : Prop where
  ne_nil : w ≠ []
  clean : ∀ c ∈ w, p c = false
  bounded : ∃ front back, s = front ++ (w ++ back) ∧
    (front = [] ∨ ∃ f c, front = f ++ [c] ∧ p c = true) ∧
    (back = [] ∨ ∃ c b, back = c :: b ∧ p c = true)

theorem Stands.append {p : Char → Bool} {w s : List Char} (h : Stands p w s) {c : Char} (hc : p c = true)
    (t : List Char) : Stands p w (s ++ c :: t) := by
  obtain ⟨front, back, rfl, hfront, hback⟩ := h.bounded
  refine ⟨h.ne_nil, h.clean, front, back ++ c :: t, by simp, hfront, Or.inr ?_⟩
  rcases hback with rfl | ⟨d, b, rfl, hd⟩
  · exact ⟨c, t, rfl, hc⟩
  · exact ⟨d, b ++ c :: t, rfl, hd⟩

theorem Stands.after {p : Char → Bool} {w t : List Char} (h : Stands p w t) {c : Char} (hc : p c = true)
    (s : List Char) : Stands p w (s ++ c :: t) := by
  obtain ⟨front, back, rfl, hfront, hback⟩ := h.bounded
  refine ⟨h.ne_nil, h.clean, s ++ c :: front, back, by simp, Or.inr ?_, hback⟩
  rcases hfront with rfl | ⟨f, d, rfl, hd⟩
  · exact ⟨s, c, rfl, hc⟩
  · exact ⟨s ++ c :: f, d, by simp, hd⟩

/-- The runs outside of separating characters stand in the text as they are, with nothing more to be
    added at either end. -/
theorem stands_of_mem_runsOutside {p : Char → Bool} {w s : List Char} (h : w ∈ runsOutside p s) :
    Stands p w s := by
  -- By induction on the length: a text is clean, or has a first separating character.
  induction hn : s.length using Nat.strong_induction_on generalizing s with
  | _ n ih =>
    have hsplit := List.takeWhile_append_dropWhile (p := fun c => !p c) (l := s)
    have hclean : ∀ c ∈ s.takeWhile (fun c => !p c), p c = false :=
      fun c hc => by simpa using List.mem_takeWhile_imp hc
    have hfirst : ∀ v ∈ runsOutside p (s.takeWhile fun c => !p c),
        Stands p v (s.takeWhile fun c => !p c) := by
      intro v hv
      by_cases hne : s.takeWhile (fun c => !p c) = []
      · rw [hne] at hv
        cases hv
      · rw [runsOutside_of_clean hne hclean, List.mem_singleton] at hv
        subst hv
        exact ⟨hne, hclean, [], [], by simp, Or.inl rfl, Or.inl rfl⟩
    cases hrest : s.dropWhile (fun c => !p c) with
    | nil =>
      rw [hrest, List.append_nil] at hsplit
      rw [← hsplit] at h ⊢
      exact hfirst w h
    | cons c rest =>
      rw [hrest] at hsplit
      have hc : p c = true := by simpa [hrest] using List.head?_dropWhile_not (fun c => !p c) s
      rw [← hsplit, runsOutside_append hc, List.mem_append] at h
      rw [← hsplit]
      rcases h with h | h
      · exact (hfirst w h).append hc rest
      · refine (ih rest.length ?_ h rfl).after hc _
        rw [← hn, ← hsplit, List.length_append, List.length_cons]
        omega

/-- **The words of a text are those that stand in it.** -/
theorem mem_runsOutside_iff {p : Char → Bool} {w s : List Char} :
    w ∈ runsOutside p s ↔ Stands p w s := by
  refine ⟨stands_of_mem_runsOutside, fun h => ?_⟩
  have hself : w ∈ runsOutside p w := by
    rw [runsOutside_of_clean h.ne_nil h.clean]
    exact List.mem_singleton_self w
  obtain ⟨front, back, rfl, hfront, hback⟩ := h.bounded
  have htail : w ∈ runsOutside p (w ++ back) := by
    rcases hback with rfl | ⟨c, b, rfl, hc⟩
    · rwa [List.append_nil]
    · rw [runsOutside_append hc]
      exact List.mem_append_left _ hself
  rcases hfront with rfl | ⟨f, c, rfl, hc⟩
  · exact htail
  · rw [List.append_assoc, List.singleton_append, runsOutside_append hc]
    exact List.mem_append_right _ htail

/-- The words of two texts with a blank between them. -/
theorem words_append_blank (v w : String) : words (v ++ " " ++ w) = words v ++ words w := by
  have hlist : (v ++ " " ++ w).toList = v.toList ++ ' ' :: w.toList := by simp
  rw [words, hlist, runsOutside_append (by decide), List.map_append]
  rfl

/-! ## Lines -/

/-- A line without a line end is one line. -/
theorem fullLines_of_line {line : List Char} (hne : line ≠ []) (h : '\n' ∉ line) :
    fullLines line = [line] := by
  have hfront : ∀ l : List Char, '\n' ∉ l → linesFront l = (l, []) := by
    intro l hl
    induction l with
    | nil => rfl
    | cons c l ih =>
      have hc : (c == '\n') = false := beq_false_of_ne fun e => hl (e ▸ List.mem_cons_self)
      rw [linesFront, ih fun hin => hl (List.mem_cons_of_mem _ hin)]
      simp only [hc]
      rfl
  rw [fullLines, hfront line h]
  obtain ⟨c, l, rfl⟩ := List.exists_cons_of_ne_nil hne
  rfl

/-- A line is cut off at its line end. -/
theorem lines_cons {line : String} (h : '\n' ∉ line.toList) (rest : String) :
    lines (line ++ "\n" ++ rest) = line :: lines rest := by
  have hlist : (line ++ "\n" ++ rest).toList = line.toList ++ '\n' :: rest.toList := by simp
  have hcut : trimEndWhile (· == '\n') (line.toList ++ ['\n']) = line.toList := by
    rw [trimEndWhile_append_of_pos (by simp), trimEndWhile_eq_self_of_neg]
    exact fun c hc => beq_false_of_ne fun e => h (e ▸ hc)
  have hfull : fullLines (line.toList ++ '\n' :: rest.toList)
      = (line.toList ++ ['\n']) :: fullLines rest.toList := by
    rw [fullLines, linesFront_append h]
    exact if_neg (by simp)
  rw [lines, hlist, hfull, List.map_cons, hcut, String.ofList_toList, lines]

/-- The lines of a text are those that line ends join to it. -/
theorem lines_join {ls : List String} (hne : ∀ l ∈ ls, l ≠ "") (h : ∀ l ∈ ls, '\n' ∉ l.toList) :
    lines (join "\n" ls) = ls := by
  unfold join
  induction ls with
  | nil => rfl
  | cons l ls ih =>
    have hl := h l List.mem_cons_self
    cases ls with
    | nil =>
      have hcut : trimEndWhile (· == '\n') l.toList = l.toList :=
        trimEndWhile_eq_self_of_neg fun c hc => beq_false_of_ne fun e => hl (e ▸ hc)
      rw [String.intercalate_singleton, lines,
        fullLines_of_line (toList_ne_nil (hne l List.mem_cons_self)) hl, List.map_singleton, hcut,
        String.ofList_toList]
    | cons m ls =>
      rw [String.intercalate_cons_cons, lines_cons hl,
        ih (fun k hk => hne k (List.mem_cons_of_mem _ hk)) fun k hk => h k (List.mem_cons_of_mem _ hk)]

/-- A line end stands only at the end of a full line. -/
theorem mem_linesFront (s : List Char) :
    ∀ line ∈ (linesFront s).1 :: (linesFront s).2, '\n' ∉ line ∨ ∃ front, line = front ++ ['\n'] ∧
      '\n' ∉ front := by
  induction s with
  | nil => simp [linesFront]
  | cons c s ih =>
    intro line hline
    rw [linesFront] at hline
    obtain ⟨hfirst, hmore⟩ := List.forall_mem_cons.mp ih
    generalize linesFront s = p at *
    obtain ⟨first, more⟩ := p
    dsimp only at *
    split at hline
    · rcases List.mem_cons.mp hline with rfl | hline
      · exact Or.inr ⟨[], rfl, List.not_mem_nil⟩
      · split at hline
        · exact hmore line hline
        · exact (List.mem_cons.mp hline).elim (fun e => e ▸ hfirst) (hmore line)
    · next hc =>
      have hc : '\n' ≠ c := fun e => hc (by simp [← e])
      rcases List.mem_cons.mp hline with rfl | hline
      · rcases hfirst with hfirst | ⟨front, rfl, hfront⟩
        · exact Or.inl fun hin => (List.mem_cons.mp hin).elim hc hfirst
        · exact Or.inr ⟨c :: front, rfl, fun hin => (List.mem_cons.mp hin).elim hc hfront⟩
      · exact hmore line hline

/-- Lines hold no line ends. -/
theorem not_mem_of_mem_lines {s line : String} (h : line ∈ lines s) : '\n' ∉ line.toList := by
  obtain ⟨full, hfull, rfl⟩ := List.mem_map.mp h
  rw [String.toList_ofList]
  have hmem : full ∈ (linesFront s.toList).1 :: (linesFront s.toList).2 := by
    unfold fullLines at hfull
    dsimp only at hfull
    split at hfull
    · exact List.mem_cons_of_mem _ hfull
    · exact hfull
  rcases mem_linesFront s.toList full hmem with hnone | ⟨front, rfl, hnone⟩
  · exact fun hin => hnone ((trimEndWhile_isPrefix _ _).mem hin)
  · rw [trimEndWhile_append_of_pos (by simp)]
    exact fun hin => hnone ((trimEndWhile_isPrefix _ _).mem hin)

/-! ## Trimming -/

theorem mem_trim {s : String} {c : Char} (h : c ∈ (trim s).toList) : c ∈ s.toList := by
  rw [trim, String.toList_ofList] at h
  exact List.dropWhile_subset _ ((trimEndWhile_isPrefix _ _).mem h)

/-- Trimming twice is trimming once. -/
theorem trim_trim (s : String) : trim (trim s) = trim s := by
  rw [trim_eq_self_iff, trim, String.toList_ofList]
  unfold trimWhile
  -- What is left after trimming the end starts as it did before.
  have hfront : (trimEndWhile isBlank (s.toList.dropWhile isBlank)).dropWhile isBlank
      = trimEndWhile isBlank (s.toList.dropWhile isBlank) := by
    have hfirst := trimEndWhile_isPrefix isBlank (s.toList.dropWhile isBlank)
    refine List.dropWhile_eq_self_iff.mpr fun hpos => ?_
    rw [hfirst.getElem hpos]
    exact List.dropWhile_eq_self_iff.mp (List.dropWhile_idempotent isBlank s.toList) _
  rw [hfront]
  exact List.rdropWhile_idempotent isBlank _

end BuildMeta.Text
