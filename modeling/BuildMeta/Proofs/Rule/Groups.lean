import BuildMeta.Rule.Reader
import BuildMeta.Proofs.Rule.LineForm

/-!
# `Proofs.Rule.Groups` — reading groups of continued lines

The reader goes from line to line and keeps an unfinished rule between them.  Here the lines of a
text are first cut into blocks (`blocks`): comments and blank lines stand alone, and any other line
opens a group that takes in the lines after it as long as they are continued.  What the blocks say
is then said block by block (`Yields`), without any state.  The reader delivers the same rules and
the same failure.
-/

namespace BuildMeta.Rule

/-! ## Continued lines -/

/-- Whether a line goes on in the next: it ends in a backslash. -/
def goesOn (line : String) : Bool := Text.endsWith line "\\"

/-- A line without the one backslash that says that it goes on. -/
def withoutMark (line : String) : String := if goesOn line then Text.dropEnd 1 line else line

theorem goesOn_iff {line : String} : goesOn line = true ↔ line.toList.getLast? = some '\\' := by
  unfold goesOn Text.endsWith
  rw [List.isSuffixOf_iff_suffix, List.getLast?_eq_some_iff]
  constructor
  · rintro ⟨front, h⟩
    exact ⟨front, h.symm⟩
  · rintro ⟨front, h⟩
    exact ⟨front, h.symm⟩

/-- The reader cuts the mark off a line that goes on. -/
theorem cutContinuation_toList (line : String) :
    cutContinuation line.toList = ((withoutMark line).toList, goesOn line) := by
  unfold cutContinuation withoutMark
  by_cases h : goesOn line = true
  · rw [goesOn_iff.mp h, if_pos h, h, Text.dropEnd, String.toList_ofList, ← String.length_toList,
      ← List.dropLast_eq_take]
    rfl
  · have hlast : line.toList.getLast? ≠ some '\\' := fun e => h (goesOn_iff.mpr e)
    rw [if_neg h, Bool.eq_false_iff.mpr h]
    split
    · next e => exact absurd e hlast
    · rfl

/-- The end of a text decides whether it is continued. -/
theorem cutContinuation_append {s : List Char} (front : List Char) (h : s ≠ []) :
    cutContinuation (front ++ s) = (front ++ (cutContinuation s).1, (cutContinuation s).2) := by
  unfold cutContinuation
  rw [List.getLast?_append_of_ne_nil _ h, List.dropLast_append_of_ne_nil h]
  split <;> rfl

/-- A gap before a text does not matter for its end. -/
theorem cutContinuation_dropWhile (s : List Char) :
    ∃ gap, IsGap gap ∧ (cutContinuation s).1 = gap ++ (cutContinuation (s.dropWhile Text.isBlank)).1 ∧
      (cutContinuation s).2 = (cutContinuation (s.dropWhile Text.isBlank)).2 := by
  refine ⟨s.takeWhile Text.isBlank, isGap_takeWhile s, ?_⟩
  by_cases hempty : s.dropWhile Text.isBlank = []
  · -- A text of blanks does not end in a backslash.
    have hgap : ∀ c ∈ s, Text.isBlank c = true := List.dropWhile_eq_nil_iff.mp hempty
    have hlast : s.getLast? ≠ some '\\' := by
      intro e
      exact absurd (hgap _ (List.mem_of_getLast? e)) (by decide)
    have hcut : cutContinuation s = (s, false) := by
      unfold cutContinuation
      split
      · next e => exact absurd e hlast
      · rfl
    rw [hempty, hcut, List.takeWhile_eq_self_iff.mpr hgap]
    exact ⟨(List.append_nil s).symm, rfl⟩
  · have hcut := cutContinuation_append (s.takeWhile Text.isBlank) hempty
    rw [List.takeWhile_append_dropWhile] at hcut
    exact Prod.ext_iff.mp hcut

/-- The value of a rule is what stands at the end of its line. -/
theorem Splits.exists_front {line : List Char} {p : Split} (h : Splits line p) :
    ∃ front, line = front ++ '=' :: p.value := by
  have hfields : ∀ {s uplid ufid key value}, FieldsAt s uplid ufid key value →
      ∃ front, s = front ++ '=' :: value := by
    rintro s uplid ufid key value ⟨s₁, s₂, ⟨_, g₁, _, rfl⟩, _, ⟨_, g₂, _, rfl⟩, _, g₄, _, _, g₃, _, rfl⟩
    refine ⟨g₁ ++ uplid ++ g₂ ++ ufid ++ g₃ ++ key ++ g₄, ?_⟩
    simp
  obtain ⟨command, uplid, ufid, key, value⟩ := p
  cases command with
  | none => exact hfields h
  | some c =>
    obtain ⟨gap, rest, _, rfl, hrest⟩ := h
    obtain ⟨front, rfl⟩ := hfields hrest
    exact ⟨gap ++ c.render.toList ++ front, by simp⟩

/-- The rule of a line is continued if the line is. -/
theorem Splits.continued_form {line : String} {p : Split} (h : Splits line.toList p) :
    p.form.continued = goesOn line := by
  obtain ⟨front, hfront⟩ := h.exists_front
  obtain ⟨gap, _, _, hsame⟩ := cutContinuation_dropWhile p.value
  have hline : (cutContinuation ('=' :: p.value)).2 = goesOn line := by
    have hcut := cutContinuation_toList line
    rw [hfront, cutContinuation_append _ (List.cons_ne_nil _ _)] at hcut
    exact (Prod.ext_iff.mp hcut).2
  show (cutContinuation (p.value.dropWhile Text.isBlank)).2 = _
  rw [← hsame, ← hline]
  by_cases hempty : p.value = []
  · rw [hempty]
    rfl
  · exact (Prod.ext_iff.mp (cutContinuation_append ['='] hempty)).2.symm

/-! ## Blocks -/

/-- A part of a text that says something on its own. -/
inductive Block where
  /-- A comment or a blank line. -/
  | alone (line : String)
  /-- A line, with its number, that opens a rule, and the lines in which the rule goes on. -/
  | group (number : Nat) (first : String) (more : List String)
deriving Repr, DecidableEq

/-- The lines that a line takes in: those after it, as long as the one before goes on. -/
def takenIn : String → List String → List String
  | _, [] => []
  | line, next :: rest => if goesOn line then next :: takenIn next rest else []

/-- Cuts lines, of which the first has the given number, into blocks. -/
def blocksFrom (number : Nat) : List String → List Block
  | [] => []
  | line :: rest =>
    if isCommentLine line.toList then .alone line :: blocksFrom (number + 1) rest
    else
      .group number line (takenIn line rest) ::
        blocksFrom (number + 1 + (takenIn line rest).length) (rest.drop (takenIn line rest).length)
termination_by lines => lines.length
decreasing_by
  · simp
  · simp only [List.length_drop, List.length_cons]
    omega

/-- The blocks of a text. -/
def blocks (text : String) : List Block := blocksFrom 1 (Text.lines text)

/-- The first line of a group stands where the number of the group says. -/
theorem getElem?_of_group {start number : Nat} {lines : List String} {first : String}
    {more : List String} (h : .group number first more ∈ blocksFrom start lines) :
    start ≤ number ∧ lines[number - start]? = some first := by
  fun_induction blocksFrom start lines with
  | case1 => cases h
  | case2 start line rest _ ih =>
    obtain ⟨hle, hget⟩ := ih (by simpa using h)
    refine ⟨by omega, ?_⟩
    rw [show number - start = number - (start + 1) + 1 by omega, List.getElem?_cons_succ, hget]
  | case3 start line rest _ ih =>
    rcases List.mem_cons.mp h with e | h
    · cases e
      exact ⟨Nat.le_refl _, by rw [Nat.sub_self, List.getElem?_cons_zero]⟩
    · obtain ⟨hle, hget⟩ := ih h
      refine ⟨by omega, ?_⟩
      rw [List.getElem?_drop, ← List.getElem?_cons_succ (a := line)] at hget
      rw [← hget]
      exact congrArg ((line :: rest)[·]?) (by omega)

/-- Whether a group is left open: its last line goes on, but no line follows. -/
def leftOpen (first : String) (more : List String) : Bool := goesOn (more.getLastD first)

/-! ## What blocks say -/

/-- The rule that a group states.  All but the value comes from the first line alone, and the value
    goes on in the other lines, whatever they hold. -/
def States (first : String) (more : List String) (rule : Rule) : Prop :=
  ∃ p uplid, FirstSplit first.toList p ∧ Uplid.parse (String.ofList p.uplid) = .ok uplid ∧
    rule =
      { command := p.command.getD .add
        uplid
        ufid := Ufid.parse (String.ofList p.ufid)
        key := String.ofList p.key
        value := Text.trim (Text.join "" ((String.ofList p.value :: more).map withoutMark)) }

/-- Why a line cannot open a rule: it cannot be split, or its platform has more than six parts. -/
inductive Unfit (first : String) : String → Prop
  | format (h : ∀ p, ¬ Splits first.toList p) : Unfit first "invalid format"
  | uplid {p : Split} (h : FirstSplit first.toList p)
      (hparts : 6 < (Text.split '-' (String.ofList p.uplid)).length) : Unfit first "invalid UPLID"

/-- The rules that blocks state, up to the first group whose first line cannot open a rule, and the
    failure there.  A group that is left open at the end states none. -/
inductive Yields : List Block → List Rule → Option Failure → Prop
  | nil : Yields [] [] none
  | alone {line blocks rules failure} (hrest : Yields blocks rules failure) :
      Yields (.alone line :: blocks) rules failure
  | rule {number first more rule blocks rules failure} (hclosed : leftOpen first more = false)
      (hrule : States first more rule) (hrest : Yields blocks rules failure) :
      Yields (.group number first more :: blocks) (rule :: rules) failure
  | leftOpen {number first more rule} (hopen : leftOpen first more = true)
      (hrule : States first more rule) :
      Yields [.group number first more] [] none
  | unfit {number first more reason blocks} (h : Unfit first reason) :
      Yields (.group number first more :: blocks) [] (some (.invalidRule number first reason))

theorem States.unique {first : String} {more : List String} {rule rule' : Rule}
    (h : States first more rule) (h' : States first more rule') : rule = rule' := by
  obtain ⟨p, uplid, hp, huplid, rfl⟩ := h
  obtain ⟨p', uplid', hp', huplid', rfl⟩ := h'
  obtain rfl := hp.unique hp'
  obtain rfl := Except.ok.inj (huplid.symm.trans huplid')
  rfl

/-- A line that is unfit for a reason states no rule. -/
theorem Unfit.not_states {first reason : String} {more : List String} {rule : Rule}
    (h : Unfit first reason) :
    ¬ States first more rule := by
  rintro ⟨p, uplid, hp, huplid, -⟩
  cases h with
  | format hnone => exact hnone p hp.1
  | uplid hp' hparts =>
    obtain rfl := hp.unique hp'
    rw [Uplid.parse, if_pos hparts] at huplid
    cases huplid

/-- There is one reason at most: a line that splits is not refused for its format. -/
theorem Unfit.unique {first reason reason' : String} (h : Unfit first reason)
    (h' : Unfit first reason') :
    reason = reason' := by
  cases h with
  | format hnone =>
    cases h' with
    | format => rfl
    | uplid hp => exact absurd hp.1 (hnone _)
  | uplid hp =>
    cases h' with
    | format hnone => exact absurd hp.1 (hnone _)
    | uplid => rfl

/-- Blocks say one thing only. -/
theorem Yields.unique {blocks : List Block} {rules rules' : List Rule}
    {failure failure' : Option Failure} (h : Yields blocks rules failure)
    (h' : Yields blocks rules' failure') :
    rules = rules' ∧ failure = failure' := by
  induction h generalizing rules' failure' with
  | nil =>
    cases h'
    exact ⟨rfl, rfl⟩
  | alone _ ih =>
    cases h' with
    | alone hrest' => exact ih hrest'
  | rule hclosed hrule _ ih =>
    cases h' with
    | rule _ hrule' hrest' =>
      obtain ⟨rfl, rfl⟩ := ih hrest'
      exact ⟨by rw [hrule.unique hrule'], rfl⟩
    | leftOpen hopen _ => exact absurd (hclosed.symm.trans hopen) Bool.false_ne_true
    | unfit hunfit => exact absurd hrule hunfit.not_states
  | leftOpen hopen hrule =>
    cases h' with
    | rule hclosed => exact absurd (hclosed.symm.trans hopen) Bool.false_ne_true
    | leftOpen => exact ⟨rfl, rfl⟩
    | unfit hunfit => exact absurd hrule hunfit.not_states
  | unfit hunfit =>
    cases h' with
    | rule _ hrule => exact absurd hrule hunfit.not_states
    | leftOpen _ hrule => exact absurd hrule hunfit.not_states
    | unfit hunfit' => exact ⟨rfl, by rw [hunfit.unique hunfit']⟩

/-! ## The reader -/

theorem join_empty_cons (w : String) (ws : List String) :
    Text.join "" (w :: ws) = w ++ Text.join "" ws := by
  cases ws with
  | nil =>
    rw [Text.join, Text.join, String.intercalate_singleton, String.intercalate_nil, String.append_empty]
  | cons v ws => rw [Text.join, Text.join, String.intercalate_cons_cons, String.append_empty]

/-- A gap at the front is trimmed away. -/
theorem trim_gap {gap : List Char} (h : IsGap gap) (s : List Char) (t : String) :
    Text.trim (String.ofList (gap ++ s) ++ t) = Text.trim (String.ofList s ++ t) := by
  unfold Text.trim Text.trimWhile
  rw [String.toList_append, String.toList_append, String.toList_ofList, String.toList_ofList,
    List.append_assoc, List.dropWhile_append_of_pos h]

/-- The value that the reader starts with and the value part of the line differ by a gap. -/
theorem trim_form_value (p : Split) (more : List String) :
    Text.trim (p.form.value ++ Text.join "" (more.map withoutMark))
      = Text.trim (Text.join "" ((String.ofList p.value :: more).map withoutMark)) := by
  obtain ⟨gap, hgap, hcut, _⟩ := cutContinuation_dropWhile p.value
  have hpart : withoutMark (String.ofList p.value) = String.ofList (cutContinuation p.value).1 := by
    have hlist := cutContinuation_toList (String.ofList p.value)
    rw [String.toList_ofList] at hlist
    rw [hlist, String.ofList_toList]
  rw [List.map_cons, join_empty_cons, hpart, hcut, trim_gap hgap]
  rfl

namespace Reading

variable {r : Reading} {number : Nat} {line : String} {rest : List String}

/-- Between two blocks nothing is unfinished and nothing has failed. -/
structure Ready (r : Reading) : Prop where
  pending : r.pending = none
  failure : r.failure = none

theorem steps_cons_of_ok (h : (r.step number line).failure = none) :
    r.steps number (line :: rest) = (r.step number line).steps (number + 1) rest := by
  rw [steps, h]
  rfl

theorem steps_cons_of_failed {e : Failure} (h : (r.step number line).failure = some e) :
    r.steps number (line :: rest) = r.step number line := by
  rw [steps, h]
  rfl

/-- What a line adds to an unfinished rule. -/
theorem step_pending {rule : Rule} (h : r.pending = some rule) (number : Nat) (line : String) :
    r.step number line
      = r.take { rule with value := rule.value ++ withoutMark line } line (goesOn line) := by
  unfold step
  rw [h]
  dsimp only
  rw [cutContinuation_toList]
  dsimp only
  rw [String.ofList_toList]

/-- An unfinished rule is taken up as any other. -/
theorem take_of_pending (r : Reading) (pending : Option Rule) (rule : Rule) (line : String)
    (continued : Bool) :
    ({ r with pending } : Reading).take rule line continued = r.take rule line continued := by
  cases continued <;> rfl

/-- A rule that is taken up gets the lines that its line takes in.  Either it is then complete, or
    it is left open and there are no more lines. -/
theorem steps_take (hok : r.failure = none) (number : Nat) (rule : Rule) (line : String)
    (rest : List String) :
    (leftOpen line (takenIn line rest) = true ∧ rest.drop (takenIn line rest).length = [] ∧
      ((r.take rule line (goesOn line)).steps number rest).rules = r.rules ∧
      ((r.take rule line (goesOn line)).steps number rest).failure = none) ∨
    (leftOpen line (takenIn line rest) = false ∧
      ∃ last, (r.take rule line (goesOn line)).steps number rest
      = (r.complete
        { rule with value := rule.value ++ Text.join "" ((takenIn line rest).map withoutMark) }
          last).steps (number + (takenIn line rest).length) (rest.drop (takenIn line rest).length)) := by
  -- The induction is on the lines that are left; each that is taken in makes the rule a longer one.
  induction rest generalizing number rule line with
  | nil =>
    cases hon : goesOn line with
    | true => exact Or.inl ⟨hon, rfl, rfl, hok⟩
    | false =>
      refine Or.inr ⟨hon, line, ?_⟩
      simp only [takenIn, List.map_nil, Text.join, String.intercalate_nil, String.append_empty]
      rfl
  | cons next rest ih =>
    cases hon : goesOn line with
    | true =>
      have htaken : takenIn line (next :: rest) = next :: takenIn next rest := if_pos hon
      have hstep := step_pending (r := r.take rule line true) rfl number next
      have hsame : r.take rule line true = { r with pending := some rule } := rfl
      have hnext : ((r.take rule line true).step number next).failure = none := by
        rw [hstep, hsame, take_of_pending]
        cases goesOn next <;> exact hok
      rw [steps_cons_of_ok hnext, hstep, hsame, take_of_pending, htaken, leftOpen, List.getLastD_cons,
        List.length_cons, List.drop_succ_cons, List.map_cons, join_empty_cons, ← String.append_assoc,
        ← Nat.add_assoc, Nat.add_right_comm]
      exact ih _ _ _
    | false =>
      have hnone : takenIn line (next :: rest) = [] := if_neg (by rw [hon]; exact Bool.false_ne_true)
      refine Or.inr ⟨by rw [hnone]; exact hon, line, ?_⟩
      rw [hnone]
      simp only [List.map_nil, Text.join, String.intercalate_nil, String.append_empty]
      rfl

/-- A line that is no comment opens the rule of the first way to split it, or cannot open one. -/
theorem openRule_cases (r : Reading) (number : Nat) (line : String) :
    (∃ reason, Unfit line reason ∧
      r.openRule number line = { r with failure := some (.invalidRule number line reason) }) ∨
    ∃ p uplid warnings, FirstSplit line.toList p ∧ Uplid.parse (String.ofList p.uplid) = .ok uplid ∧
      r.openRule number line = ({ r with warnings } : Reading).take
        { command := p.command.getD .add, uplid, ufid := Ufid.parse (String.ofList p.ufid),
          key := String.ofList p.key, value := p.form.value } line (goesOn line) := by
  unfold openRule
  cases hform : lineForm? line with
  | none => exact Or.inl ⟨_, .format (lineForm?_eq_none_iff.mp hform), rfl⟩
  | some form =>
    obtain ⟨p, hp, rfl⟩ := lineForm?_eq_some_iff.mp hform
    dsimp only
    cases huplid : Uplid.parse p.form.uplid with
    | error e =>
      refine Or.inl ⟨_, .uplid hp ?_, rfl⟩
      by_contra hparts
      have hok : ∃ uplid, Uplid.parse p.form.uplid = .ok uplid := ⟨_, if_neg hparts⟩
      obtain ⟨uplid, hok⟩ := hok
      rw [huplid] at hok
      cases hok
    | ok uplid =>
      refine Or.inr ⟨p, uplid, ?_⟩
      dsimp only
      rw [hp.1.continued_form]
      split
      · exact ⟨r.warnings, hp, huplid, rfl⟩
      · exact ⟨_, hp, huplid, rfl⟩

/-- **Reading lines is reading their blocks.** -/
theorem steps_yields (h : r.Ready) (number : Nat) (lines : List String) :
    ∃ rules, Yields (blocksFrom number lines) rules (r.steps number lines).failure ∧
      (r.steps number lines).rules = r.rules ++ rules := by
  fun_induction blocksFrom number lines generalizing r with
  | case1 number =>
    refine ⟨[], ?_, (List.append_nil _).symm⟩
    rw [steps, h.failure]
    exact .nil
  | case2 number line rest hcomment ih =>
    have hstep : r.step number line = { r with lines := r.lines ++ [(Text.trimEnd line, none)] } := by
      unfold step
      rw [h.pending]
      exact if_pos hcomment
    rw [steps_cons_of_ok (by rw [hstep]; exact h.failure), hstep]
    obtain ⟨rules, hyields, hrules⟩ :=
      ih (r := { r with lines := r.lines ++ [(Text.trimEnd line, none)] })
      ⟨h.pending, h.failure⟩
    exact ⟨rules, .alone hyields, hrules⟩
  | case3 number line rest hcomment ih =>
    have hopen : r.step number line = r.openRule number line := by
      unfold step
      rw [h.pending]
      exact if_neg hcomment
    rcases openRule_cases r number line
      with ⟨reason, hunfit, hstep⟩ | ⟨p, uplid, warnings, hp, huplid, hstep⟩
    · rw [steps_cons_of_failed (by rw [hopen, hstep]), hopen, hstep]
      exact ⟨[], .unfit hunfit, (List.append_nil _).symm⟩
    · have hok : (r.step number line).failure = none := by
        rw [hopen, hstep]
        cases goesOn line <;> exact h.failure
      have hstates : States line (takenIn line rest) _ := ⟨p, uplid, hp, huplid, rfl⟩
      rw [← trim_form_value] at hstates
      rw [steps_cons_of_ok hok, hopen, hstep]
      rcases steps_take (r := { r with warnings }) h.failure (number + 1) _ line rest with
        ⟨hleft, hdone, hrules, hnone⟩ | ⟨hclosed, last, hsteps⟩
      · rw [hdone, blocksFrom, hnone, hrules]
        exact ⟨[], .leftOpen hleft hstates, (List.append_nil _).symm⟩
      · rw [hsteps]
        obtain ⟨rules, hyields, hrules⟩ :=
          ih (r := Reading.complete { r with warnings } _ last) ⟨rfl, h.failure⟩
        refine ⟨_, .rule hclosed hstates hyields, ?_⟩
        rw [hrules]
        exact List.append_assoc _ _ _

end Reading

/-- **The reader delivers what the blocks of a text say, and nothing else**: the rules of the groups
    in order, none for what stands alone, up to the first group whose first line cannot open a rule,
    where it fails with the number of that line.  The number of a group is the place of its first
    line among the lines of the text. -/
theorem read_yields (text : String) :
    (∀ rules failure, Yields (blocks text) rules failure ↔
      rules = (read text).rules ∧ failure = (read text).failure) ∧
    ∀ number first more, .group number first more ∈ blocks text →
      1 ≤ number ∧ (Text.lines text)[number - 1]? = some first := by
  obtain ⟨found, hyields, hrules⟩ := Reading.steps_yields (r := {}) ⟨rfl, rfl⟩ 1 (Text.lines text)
  have hread : Yields (blocks text) (read text).rules (read text).failure := by
    rw [show (read text).rules = found from hrules]
    exact hyields
  refine ⟨fun rules failure => ⟨fun h => h.unique hread, ?_⟩,
    fun number first more h => getElem?_of_group h⟩
  rintro ⟨rfl, rfl⟩
  exact hread

end BuildMeta.Rule
