import BuildMeta.Pkg.Contents
import BuildMeta.Proofs.Text.Plain

/-!
# `Proofs.Pkg.Continuation` — what is left of continued lines

A line that ends in a backslash goes on in the next one.  The lines of a file fall apart into blank
ones and runs (`Runs`): a run is a maximal sequence of lines that go on, and the line behind it,
which ends it.  A run should become one line with a space in place of every mark (`LineRun.whole`).

Reading cuts off two characters where a line goes on, the mark and the one before it
(`LineRun.clipped`).  So:

* `joinFrom_runs`, `joinFrom_of_marked` — every run becomes its clipped line, unless the last line
  goes on;
* `clipped_eq_whole_iff` — nothing is lost if and only if no line of the run goes on, or only a
  first one that holds nothing but the mark;
* `visible_clipped_iff` — nothing but white space is lost if and only if no mark follows a character
  that is seen;
* `joinLines_lossless_iff` — the lines of a file: which are refused, what becomes of the others, and
  what they lose.
-/

namespace BuildMeta.Pkg

/-- The sign that a line goes on. -/
def mark : Char := '\\'

/-- Lines that make up one: those that go on, without their marks, and the one that ends it. -/
structure LineRun where
  fronts : List (List Char)
  last : List Char
  ended : last.getLast? ≠ some mark
  nonblank : fronts ≠ [] ∨ last ≠ []

namespace LineRun

/-- The lines of a run, without the white space at their ends. -/
def lines (r : LineRun) : List (List Char) := r.fronts.map (· ++ [mark]) ++ [r.last]

/-- The run as one line, with a space in place of every mark. -/
def whole (r : LineRun) : List Char := r.fronts.flatMap (· ++ [' ']) ++ r.last

/-- What is left when lines that go on are added to a text: the character before each mark is cut
    off with it. -/
def clipFrom (text : List Char) (fronts : List (List Char)) : List Char :=
  fronts.foldl (fun text front => (text ++ front).dropLast ++ [' ']) text

/-- The run as one line without the characters before the marks.  Where a line holds only its mark,
    the character before it is the space of the join before. -/
def clipped (r : LineRun) : List Char := clipFrom [] r.fronts ++ r.last

end LineRun

/-- A line without the white space at its end. -/
def bare (line : List Char) : List Char := Text.trimEndWhile Text.isBlank line

/-- `runs` are the runs of some lines.  Blank lines between them belong to none. -/
inductive Runs : List (List Char) → List LineRun → Prop
  | nil : Runs [] []
  | blank {line : List Char} {rest : List (List Char)} {runs : List LineRun} (hline : bare line = [])
      (h : Runs rest runs) : Runs (line :: rest) runs
  | run {lines rest : List (List Char)} {runs : List LineRun} (r : LineRun)
      (hlines : lines.map bare = r.lines) (h : Runs rest runs) : Runs (lines ++ rest) (r :: runs)

/-! ## Joining -/

variable {line front : List Char} {lines rest : List (List Char)} {runs : List LineRun}

/-- A line that goes on is put before the next without its mark and the character before that. -/
theorem joinFrom_marked (pending : Option (List Char)) (hline : bare line = front ++ [mark]) :
    joinFrom pending (line :: rest)
      = joinFrom (some ((pending.getD [] ++ front).dropLast ++ [' '])) rest := by
  have htext : pending.getD [] ++ Text.trimEndWhile Text.isBlank line
      = (pending.getD [] ++ front) ++ [mark] := by
    rw [List.append_assoc]
    exact congrArg _ hline
  have hcut :
      ((pending.getD [] ++ front) ++ [mark]).take (((pending.getD [] ++ front) ++ [mark]).length - 2) =
      (pending.getD [] ++ front).dropLast := by
    rw [List.length_append, List.length_singleton, List.take_append_of_le_length (by omega),
      List.dropLast_eq_take]
    congr 1
  have hlast : ((pending.getD [] ++ front) ++ [mark]).getLast? = some '\\' := List.getLast?_concat
  rw [joinFrom, htext, if_neg (by simp), hlast, if_pos (by decide), hcut]

/-- A line that does not go on ends what was begun before it. -/
theorem joinFrom_ended {pending : Option (List Char)} (hne : pending.getD [] ++ bare line ≠ [])
    (hlast : (pending.getD [] ++ bare line).getLast? ≠ some mark) :
    joinFrom pending (line :: rest)
      = do return (pending.getD [] ++ bare line) :: (← joinFrom none rest) := by
  rw [joinFrom]
  exact (if_neg fun hempty => hne (List.isEmpty_iff.mp hempty)).trans
    (if_neg fun hmark => hlast (eq_of_beq hmark))

theorem joinFrom_blank (hline : bare line = []) : joinFrom none (line :: rest) = joinFrom none rest := by
  rw [joinFrom]
  exact if_pos (List.isEmpty_iff.mpr hline)

/-- A text to which lines that go on were added ends in the space of the last join. -/
theorem LineRun.getLast?_clipFrom (text : List Char) {fronts : List (List Char)} (h : fronts ≠ []) :
    (clipFrom text fronts).getLast? = some ' ' := by
  obtain ⟨before, front, rfl⟩ := (List.eq_nil_or_concat' fronts).resolve_left h
  unfold clipFrom
  rw [List.foldl_append]
  exact List.getLast?_concat

/-- The lines of a run that go on, one after the other. -/
theorem joinFrom_fronts {fronts : List (List Char)} (hlines : lines.map bare = fronts.map (· ++ [mark]))
    (rest : List (List Char)) (text : List Char) :
    joinFrom (some text) (lines ++ rest) = joinFrom (some (LineRun.clipFrom text fronts)) rest := by
  induction fronts generalizing lines text with
  | nil =>
    obtain rfl : lines = [] := List.map_eq_nil_iff.mp hlines
    rfl
  | cons front fronts ih =>
    obtain ⟨line, lines, rfl, hline, hlines⟩ := List.map_eq_cons_iff.mp hlines
    rw [List.cons_append, joinFrom_marked _ hline, ih hlines]
    rfl

/-- **A run becomes its clipped line.** -/
theorem joinFrom_run (r : LineRun) (hlines : lines.map bare = r.lines) (rest : List (List Char)) :
    joinFrom none (lines ++ rest) = do return r.clipped :: (← joinFrom none rest) := by
  obtain ⟨before, last, rfl, hbefore, hlast⟩ := List.map_eq_append_iff.mp hlines
  obtain ⟨line, hone, hline⟩ := List.map_eq_singleton_iff.mp hlast
  subst hone
  rw [List.append_assoc, List.singleton_append]
  -- Nothing is begun before the first line; from the second on a text is.
  have hfronts : joinFrom none (before ++ line :: rest) =
      joinFrom (if r.fronts = [] then none else some (LineRun.clipFrom [] r.fronts)) (line :: rest) := by
    cases hfronts : r.fronts with
    | nil =>
      rw [hfronts] at hbefore
      obtain rfl : before = [] := List.map_eq_nil_iff.mp hbefore
      rfl
    | cons front fronts =>
      rw [hfronts] at hbefore
      obtain ⟨first, others, rfl, hfirst, hothers⟩ := List.map_eq_cons_iff.mp hbefore
      rw [List.cons_append, joinFrom_marked _ hfirst, joinFrom_fronts hothers]
      rfl
  have htext : (if r.fronts = [] then none else some (LineRun.clipFrom [] r.fronts)).getD [] =
      LineRun.clipFrom [] r.fronts := by
    split
    · next hnil =>
      rw [hnil]
      rfl
    · rfl
  have hclipped :
      (if r.fronts = [] then none else some (LineRun.clipFrom [] r.fronts)).getD [] ++ bare line =
      r.clipped := by
    rw [htext, hline]
    rfl
  have hlastChar : r.clipped.getLast? ≠ some mark ∧ r.clipped ≠ [] := by
    unfold LineRun.clipped
    by_cases hlast : r.last = []
    · have hspace := LineRun.getLast?_clipFrom [] (r.nonblank.resolve_right fun hne => hne hlast)
      rw [hlast, List.append_nil, hspace]
      refine ⟨by decide, fun hnil => ?_⟩
      rw [hnil] at hspace
      cases hspace
    · rw [List.getLast?_append_of_ne_nil _ hlast]
      exact ⟨r.ended, List.append_ne_nil_of_right_ne_nil _ hlast⟩
  rw [hfronts,
    joinFrom_ended (by rw [hclipped]; exact hlastChar.2) (by rw [hclipped]; exact hlastChar.1), hclipped]

theorem joinFrom_runs (h : Runs lines runs) : joinFrom none lines = .ok (runs.map LineRun.clipped) := by
  induction h with
  | nil => rfl
  | blank hline _ ih => rw [joinFrom_blank hline, ih]
  | run r hlines _ ih =>
    rw [joinFrom_run r hlines, ih]
    rfl

/-- If the last line goes on, there is nothing to join it with. -/
theorem joinFrom_of_marked (before : List (List Char)) (hline : bare line = front ++ [mark])
    (pending : Option (List Char)) : joinFrom pending (before ++ [line]) = .error .outOfRange := by
  induction before generalizing pending with
  | nil =>
    rw [List.nil_append, joinFrom_marked pending hline]
    rfl
  | cons first before ih =>
    rw [List.cons_append, joinFrom]
    split
    · exact ih none
    · split
      · exact ih _
      · rw [ih none]
        rfl

/-! ## Runs -/

theorem exists_marked_or_ended (line : List Char) :
    (∃ front, bare line = front ++ [mark]) ∨ (bare line).getLast? ≠ some mark := by
  by_cases h : (bare line).getLast? = some mark
  · exact Or.inl (List.getLast?_eq_some_iff.mp h)
  · exact Or.inr h

/-- **Lines of which the last does not go on have runs.** -/
theorem exists_runs (h : ∀ line ∈ lines.getLast?, (bare line).getLast? ≠ some mark) :
    ∃ runs, Runs lines runs := by
  induction lines with
  | nil => exact ⟨[], .nil⟩
  | cons line rest ih =>
    have hrest : ∃ runs, Runs rest runs := by
      apply ih
      intro last hlast
      apply h
      rw [Option.mem_def] at hlast ⊢
      rw [List.getLast?_cons, hlast]
      rfl
    obtain ⟨runs, hruns⟩ := hrest
    rcases exists_marked_or_ended line with ⟨front, hfront⟩ | hended
    · -- The line is a new first line of the run behind it, or goes on in a blank line.
      cases hruns with
      | nil => exact absurd (by rw [hfront, List.getLast?_concat]) (h line rfl)
      | @blank next others _ hnext hothers =>
        let r : LineRun := ⟨[front], [], by simp, by simp⟩
        have hlines : [line, next].map bare = r.lines := by
          rw [List.map_cons, List.map_singleton, hfront, hnext]
          rfl
        have hrun := Runs.run r hlines hothers
        exact ⟨_, hrun⟩
      | @run behind others _ r hbehind hothers =>
        let longer : LineRun := ⟨front :: r.fronts, r.last, r.ended, by simp⟩
        have hlines : (line :: behind).map bare = longer.lines := by
          rw [List.map_cons, hfront, hbehind]
          rfl
        have hrun := Runs.run longer hlines hothers
        exact ⟨_, hrun⟩
    · by_cases hblank : bare line = []
      · exact ⟨runs, .blank hblank hruns⟩
      · let r : LineRun := ⟨[], bare line, hended, Or.inr hblank⟩
        have hlines : [line].map bare = r.lines := rfl
        have hrun := Runs.run r hlines hruns
        exact ⟨_, hrun⟩

/-! ## What is lost -/

namespace LineRun

variable {text : List Char} {fronts : List (List Char)}

/-- Each line that goes on costs one character, once there is a text before it. -/
theorem length_clipFrom (h : text ≠ []) :
    (clipFrom text fronts).length = text.length + fronts.flatten.length := by
  induction fronts generalizing text with
  | nil => rfl
  | cons front fronts ih =>
    have hpos : 0 < text.length := List.length_pos_iff.mpr h
    have hrest : (clipFrom ((text ++ front).dropLast ++ [' ']) fronts).length = _ := ih (by simp)
    show (clipFrom ((text ++ front).dropLast ++ [' ']) fronts).length = _
    rw [hrest, List.length_append, List.length_dropLast, List.length_append, List.length_singleton,
      List.flatten_cons, List.length_append]
    omega

theorem length_flatMap_space :
    (fronts.flatMap (· ++ [' '])).length = fronts.flatten.length + fronts.length := by
  induction fronts with
  | nil => rfl
  | cons front fronts ih =>
    rw [List.flatMap_cons, List.length_append, List.length_append, List.length_singleton, ih,
      List.flatten_cons, List.length_append, List.length_cons]
    omega

/-- **Nothing is lost if and only if no line goes on, or only a first one that holds nothing but its
    mark.** -/
theorem clipped_eq_whole_iff (r : LineRun) : r.clipped = r.whole ↔ r.fronts = [] ∨ r.fronts = [[]] := by
  unfold clipped whole
  rw [List.append_cancel_right_eq]
  constructor
  · intro h
    cases hfronts : r.fronts with
    | nil => exact Or.inl rfl
    | cons front fronts =>
      rw [hfronts] at h
      have hclip :
          (clipFrom [] (front :: fronts)).length = front.length - 1 + 1 + fronts.flatten.length := by
        show (clipFrom (front.dropLast ++ [' ']) fronts).length = _
        rw [length_clipFrom (by simp), List.length_append, List.length_dropLast, List.length_singleton]
      have hlength := congrArg List.length h
      rw [hclip, length_flatMap_space, List.flatten_cons, List.length_append,
        List.length_cons] at hlength
      -- The first line pays with its own last character, every further one with a character too.
      obtain rfl : fronts = [] := List.length_eq_zero_iff.mp (by omega)
      obtain rfl : front = [] := List.length_eq_zero_iff.mp (by simp at hlength; omega)
      exact Or.inr rfl
  · rintro (h | h) <;> rw [h] <;> rfl

/-- The characters of a text that are not blank. -/
def visible (text : List Char) : List Char := text.filter (!Text.isBlank ·)

theorem visible_append (text more : List Char) : visible (text ++ more) = visible text ++ visible more :=
  List.filter_append text more

theorem visible_concat_space (text : List Char) : visible (text ++ [' ']) = visible text := by
  rw [visible_append]
  exact List.append_nil _

theorem visible_dropLast (text : List Char) :
    visible text.dropLast = visible text ↔ ∀ c ∈ text.getLast?, Text.isBlank c = true := by
  rcases List.eq_nil_or_concat' text with rfl | ⟨before, c, rfl⟩
  · simp
  · rw [List.dropLast_concat, List.getLast?_concat, visible_append]
    cases hc : Text.isBlank c <;> simp [visible, hc]

theorem visible_dropLast_sublist (text : List Char) : (visible text.dropLast).Sublist (visible text) :=
  (List.dropLast_sublist text).filter _

theorem flatMap_visible_dropLast_sublist (fronts : List (List Char)) :
    (fronts.flatMap fun front => visible front.dropLast).Sublist (fronts.flatMap visible) := by
  induction fronts with
  | nil => exact List.Sublist.refl _
  | cons front fronts ih =>
    rw [List.flatMap_cons, List.flatMap_cons]
    exact (visible_dropLast_sublist front).append ih

theorem visible_whole (r : LineRun) : visible r.whole = r.fronts.flatMap visible ++ visible r.last := by
  unfold whole
  rw [visible_append]
  congr 1
  induction r.fronts with
  | nil => rfl
  | cons front fronts ih =>
    rw [List.flatMap_cons, visible_append, visible_concat_space, ih, List.flatMap_cons]

/-- What is cut off is the last character of a line, or the space of the join before it if the line
    holds only its mark. -/
theorem visible_clipFrom (h : visible text.dropLast = visible text) :
    visible (clipFrom text fronts)
      = visible text ++ fronts.flatMap fun front => visible front.dropLast := by
  induction fronts generalizing text with
  | nil => exact (List.append_nil _).symm
  | cons front fronts ih =>
    have hcut : visible (text ++ front).dropLast = visible text ++ visible front.dropLast := by
      by_cases hfront : front = []
      · subst hfront
        rw [List.append_nil, h]
        exact (List.append_nil _).symm
      · rw [List.dropLast_append_of_ne_nil hfront, visible_append]
    show visible (clipFrom ((text ++ front).dropLast ++ [' ']) fronts) = _
    rw [ih (by rw [List.dropLast_concat, visible_concat_space]), visible_concat_space, hcut,
      List.flatMap_cons, List.append_assoc]

/-- **Nothing but white space is lost if and only if no mark directly follows a character that is
    seen.** -/
theorem visible_clipped_iff (r : LineRun) :
    visible r.clipped = visible r.whole ↔
    ∀ front ∈ r.fronts, ∀ c ∈ front.getLast?, Text.isBlank c = true := by
  rw [visible_whole, clipped, visible_append, visible_clipFrom rfl, List.append_cancel_right_eq]
  show r.fronts.flatMap (fun front => visible front.dropLast) = r.fronts.flatMap visible ↔ _
  induction r.fronts with
  | nil => simp
  | cons front fronts ih =>
    have hfewer : (visible front.dropLast).length ≤ (visible front).length :=
      (visible_dropLast_sublist front).length_le
    have hrest := (flatMap_visible_dropLast_sublist fronts).length_le
    rw [List.flatMap_cons, List.flatMap_cons, List.forall_mem_cons, ← visible_dropLast, ← ih]
    constructor
    · intro h
      have hlength := congrArg List.length h
      rw [List.length_append, List.length_append] at hlength
      exact List.append_inj h (by omega)
    · rintro ⟨hfirst, hrest⟩
      rw [hfirst, hrest]

/-- **Where one blank stands before every mark, the lines are joined by single spaces.** -/
theorem clipFrom_eq_spaced (h : ∀ front ∈ fronts, front.length = (bare front).length + 1) :
    clipFrom text fronts = text ++ fronts.flatMap (bare · ++ [' ']) := by
  induction fronts generalizing text with
  | nil => exact (List.append_nil text).symm
  | cons front fronts ih =>
    obtain ⟨hfront, hfronts⟩ := List.forall_mem_cons.mp h
    have hcut : front.dropLast = bare front := by
      rw [List.dropLast_eq_take, hfront, Nat.add_sub_cancel]
      exact (List.prefix_iff_eq_take.mp (Text.trimEndWhile_isPrefix _ front)).symm
    have hne : front ≠ [] := by
      rintro rfl
      cases hfront
    show clipFrom ((text ++ front).dropLast ++ [' ']) fronts = _
    rw [ih hfronts, List.dropLast_append_of_ne_nil hne, hcut, List.flatMap_cons]
    simp only [List.append_assoc]

end LineRun

/-! ## The lines of a file -/

/-- Joining looks at the end of the last line first, and refuses a mark there. -/
theorem joinLines_concat (front : List String) {last : String} (hlast : last ≠ "") :
    joinLines (front ++ [last]) = if last.toList.getLast? = some mark then .error .undefinedName
      else (joinFrom none ((front ++ [last]).map String.toList)).map (·.map String.ofList) := by
  unfold joinLines
  rw [List.getLast?_concat, Option.bind_some]
  split
  · next hnone => exact absurd (String.toList_eq_nil_iff.mp (List.getLast?_eq_none_iff.mp hnone)) hlast
  · next hmark =>
    have hmark : last.toList.getLast? = some mark := hmark
    rw [if_pos hmark]
    rfl
  · next c hne hc =>
    have hmark : last.toList.getLast? ≠ some mark :=
      fun hmark => hne (Option.some.inj (hc.symm.trans hmark))
    rw [if_neg hmark]
    cases joinFrom none ((front ++ [last]).map String.toList) <;> rfl

/-- A mark is not white space, so one at the end of a line stays there. -/
theorem getLast?_bare_of_getLast? (h : line.getLast? = some mark) :
    (bare line).getLast? = some mark := by
  obtain ⟨front, rfl⟩ := List.getLast?_eq_some_iff.mp h
  have hbare : bare (front ++ [mark]) = front ++ [mark] :=
    Text.trimEndWhile_append_of_ne_nil (by decide) (by simp) front
  rw [hbare, List.getLast?_concat]

/-- If the last line goes on, joining fails; with which failure depends on white space behind the
    mark. -/
theorem joinLines_of_marked (front : List String) {last : String} (hlast : last ≠ "")
    (hmark : (bare last.toList).getLast? = some mark) :
    joinLines (front ++ [last]) =
      .error (if last.toList.getLast? = some mark then .undefinedName else .outOfRange) := by
  rw [joinLines_concat front hlast]
  by_cases h : last.toList.getLast? = some mark
  · rw [if_pos h, if_pos h]
  · obtain ⟨text, htext⟩ := List.getLast?_eq_some_iff.mp hmark
    rw [if_neg h, if_neg h, List.map_append, List.map_singleton, joinFrom_of_marked _ htext]
    rfl

theorem joinLines_of_runs (front : List String) {last : String} (hlast : last ≠ "")
    (hmark : (bare last.toList).getLast? ≠ some mark)
    (h : Runs ((front ++ [last]).map String.toList) runs) :
    joinLines (front ++ [last]) = .ok (runs.map fun r => String.ofList r.clipped) := by
  rw [joinLines_concat front hlast, if_neg fun hc => hmark (getLast?_bare_of_getLast? hc),
    joinFrom_runs h]
  exact congrArg Except.ok List.map_map

/-- **When joining loses nothing.**  Lines of which the last goes on are refused, though with a
    failure that depends on whether a line end follows the mark.  Of all others every run becomes a
    line without the character before each mark. So the lines are whole exactly if no line goes on
    but a first one that holds only its mark, and have lost nothing but white space exactly if no
    mark follows a character that is seen.  With one blank before each mark they are joined by
    single spaces. -/
theorem joinLines_lossless_iff (before : List String) (last : String) (hlast : last ≠ "") :
    (∀ e, joinLines (before ++ [last]) = .error e ↔ (bare last.toList).getLast? = some mark ∧
        e = if last.toList.getLast? = some mark then .undefinedName else .outOfRange) ∧
      ((bare last.toList).getLast? ≠ some mark →
        (∃ runs, Runs ((before ++ [last]).map String.toList) runs) ∧
          ∀ runs, Runs ((before ++ [last]).map String.toList) runs →
            joinLines (before ++ [last]) = .ok (runs.map fun r => String.ofList r.clipped) ∧
              (joinLines (before ++ [last]) = .ok (runs.map fun r => String.ofList r.whole) ↔
                ∀ r ∈ runs, r.fronts = [] ∨ r.fronts = [[]]) ∧
              ∀ r ∈ runs, (LineRun.visible r.clipped = LineRun.visible r.whole ↔
                  ∀ front ∈ r.fronts, ∀ c ∈ front.getLast?, Text.isBlank c = true) ∧
                ((∀ front ∈ r.fronts, front.length = (bare front).length + 1) →
                  r.clipped = r.fronts.flatMap (bare · ++ [' ']) ++ r.last)) := by
  have hruns : (bare last.toList).getLast? ≠ some mark →
      ∃ runs, Runs ((before ++ [last]).map String.toList) runs := by
    intro hmark
    apply exists_runs
    rw [List.map_append, List.map_singleton, List.getLast?_concat]
    intro line hline
    rwa [← Option.some.inj hline]
  refine ⟨fun e => ⟨fun he => ?_, ?_⟩, fun hmark => ⟨hruns hmark, fun runs h => ?_⟩⟩
  · by_cases hmark : (bare last.toList).getLast? = some mark
    · rw [joinLines_of_marked before hlast hmark] at he
      exact ⟨hmark, (Except.error.inj he).symm⟩
    · obtain ⟨runs, h⟩ := hruns hmark
      rw [joinLines_of_runs before hlast hmark h] at he
      cases he
  · rintro ⟨hmark, rfl⟩
    exact joinLines_of_marked before hlast hmark
  · have hjoin := joinLines_of_runs before hlast hmark h
    refine ⟨hjoin, ?_, fun r _ => ⟨r.visible_clipped_iff, fun hone => ?_⟩⟩
    · rw [hjoin, Except.ok.injEq, List.map_inj_left]
      simp only [String.ofList_inj, LineRun.clipped_eq_whole_iff]
    · unfold LineRun.clipped
      rw [LineRun.clipFrom_eq_spaced hone, List.nil_append]

/-- A line with one blank before its mark, and the line in which it goes on. -/
def spacedRun : LineRun := ⟨["Libs: -la ".toList], "-lb".toList, by decide, by decide⟩

theorem runs_spacedRun : Runs ((["Libs: -la \\\n"] ++ ["-lb\n"]).map String.toList) [spacedRun] :=
  have hlines : ["Libs: -la \\\n".toList, "-lb\n".toList].map bare = spacedRun.lines := by decide +kernel
  Runs.run spacedRun hlines .nil

/-- With one blank before the mark, a library on the next line keeps its name. -/
theorem joinLines_lossless_iff_spaced :
    "-lb\n" ≠ "" ∧ (bare "-lb\n".toList).getLast? ≠ some mark ∧
      Runs ((["Libs: -la \\\n"] ++ ["-lb\n"]).map String.toList) [spacedRun] ∧
      joinLines (["Libs: -la \\\n"] ++ ["-lb\n"]) = .ok ["Libs: -la -lb"] ∧
      LineRun.visible spacedRun.clipped = LineRun.visible spacedRun.whole := by
  have hne : "-lb\n" ≠ "" := by decide
  have hmark : (bare "-lb\n".toList).getLast? ≠ some mark := by decide +kernel
  obtain ⟨-, hlines⟩ := joinLines_lossless_iff ["Libs: -la \\\n"] "-lb\n" hne
  obtain ⟨hjoin, -, hrun⟩ := (hlines hmark).2 [spacedRun] runs_spacedRun
  refine ⟨hne, hmark, runs_spacedRun, hjoin.trans (by decide +kernel), ?_⟩
  apply (hrun spacedRun List.mem_cons_self).1.mpr
  intro front hfront c hc
  obtain rfl : front = "Libs: -la ".toList := List.mem_singleton.mp hfront
  obtain rfl : ' ' = c := Option.some.inj hc
  rfl

/-- Without the blank a library loses its name.  A file that ends in a mark is refused with the
    failure of the check, or of the joining if a line end follows. -/
theorem joinLines_not_lossless :
    joinLines ["Libs: -la\\\n", "-lb\n"] = .ok ["Libs: -l -lb"] ∧
      joinLines ["Libs: -la\\"] = .error .undefinedName ∧
      joinLines ["Libs: -la\\\n"] = .error .outOfRange := by
  decide +kernel

end BuildMeta.Pkg
