import BuildMeta.Proofs.Rule.Groups
import Mathlib.Data.List.Forall2

/-!
# `Proofs.Rule.Delivery` — which rules of a text are delivered

Read line by line, a text begins a rule at each line that is met outside of one and is neither blank
nor a comment (`openings`).  One bit says where the next line stands (`staysInside`).  The reader
hands a rule over at the first of its lines that does not go on, and does nothing more when the
lines are used up.  So each rule that is begun is delivered, in order, but the last one is lost when
the text ends inside it (`length_rules_eq_iff`).
-/

namespace BuildMeta.Rule

/-! ## Beginning a rule -/

/-- Whether the next line stands inside a rule, where `inside` says it of the line itself.  A
    comment or a blank line outside of a rule does not go on. -/
def staysInside (inside : Bool) (line : String) : Bool :=
  (inside || !isCommentLine line.toList) && goesOn line

/-- The lines that begin a rule: those met outside of one that are neither blank nor comments. -/
def openings (inside : Bool) : List String → List String
  | [] => []
  | line :: rest =>
    if inside || isCommentLine line.toList then openings (staysInside inside line) rest
    else line :: openings (staysInside inside line) rest

/-- Whether lines end inside a rule. -/
def endsInside (lines : List String) : Bool := lines.foldl staysInside false

variable {line last : String} {lines rest : List String}

theorem staysInside_true : staysInside true line = goesOn line := rfl

theorem staysInside_comment (h : isCommentLine line.toList = true) : staysInside false line = false := by
  rw [staysInside, h]
  rfl

theorem staysInside_opening (h : ¬ isCommentLine line.toList = true) :
    staysInside false line = goesOn line := by
  rw [staysInside, Bool.eq_false_iff.mpr h]
  rfl

theorem openings_comment (h : isCommentLine line.toList = true) :
    openings false (line :: rest) = openings false rest := by
  rw [openings, h, staysInside_comment h]
  rfl

theorem openings_opening (h : ¬ isCommentLine line.toList = true) :
    openings false (line :: rest) = line :: openings (goesOn line) rest := by
  rw [openings, Bool.eq_false_iff.mpr h, staysInside_opening h]
  rfl

/-- Lines whose last does not go on do not end inside a rule. -/
theorem endsInside_eq_false (h : lines.getLast? = some last) (hlast : goesOn last = false) :
    endsInside lines = false := by
  obtain ⟨front, rfl⟩ := List.getLast?_eq_some_iff.mp h
  rw [endsInside, List.foldl_append, List.foldl_cons, List.foldl_nil, staysInside, hlast, Bool.and_false]

/-! ## Lines that are taken in

What a line takes in begins no rule.  After it the next line is outside, unless there is none. -/

/-- Behind the lines that a rule takes, rules open as at the start. -/
theorem openings_goesOn (line : String) (rest : List String) :
    openings (goesOn line) rest = openings false (rest.drop (takenIn line rest).length) := by
  induction rest generalizing line with
  | nil => cases goesOn line <;> rfl
  | cons next rest ih =>
    rw [takenIn]
    cases goesOn line with
    | true => exact ih next
    | false => rfl

/-- Whether the text ends inside a rule is decided by the rule that was left open, or by the lines
    behind it. -/
theorem foldl_goesOn (line : String) (rest : List String) :
    rest.foldl staysInside (goesOn line)
      = (leftOpen line (takenIn line rest) || endsInside (rest.drop (takenIn line rest).length)) := by
  induction rest generalizing line with
  | nil => exact (Bool.or_false _).symm
  | cons next rest ih =>
    rw [takenIn]
    cases hon : goesOn line with
    | true =>
      rw [List.foldl_cons, staysInside_true, ih, if_pos rfl, leftOpen, leftOpen, List.getLastD_cons]
      rfl
    | false =>
      rw [if_neg Bool.false_ne_true, leftOpen, List.getLastD_nil, hon]
      rfl

/-! ## What is delivered -/

/-- A rule is one that a line begins: the line, with some lines after it, states the rule. -/
def Begins (line : String) (rule : Rule) : Prop := ∃ more, States line more rule

/-- What lines deliver when none of them is unfit: the rules that they begin, but for the one in
    which they end. -/
def Delivers (lines : List String) (rules : List Rule) : Prop :=
  ∃ begun lost, openings false lines = begun ++ lost ∧ List.Forall₂ Begins begun rules ∧
    lost.length = (endsInside lines).toNat

theorem Delivers.length_eq {rules : List Rule} (h : Delivers lines rules) :
    (openings false lines).length = rules.length + (endsInside lines).toNat := by
  obtain ⟨begun, lost, hopenings, hbegun, hlost⟩ := h
  rw [hopenings, List.length_append, hbegun.length_eq, hlost]

theorem eq_nil_of_blocksFrom {number : Nat} (h : blocksFrom number lines = []) : lines = [] := by
  cases lines with
  | nil => rfl
  | cons line rest =>
    rw [blocksFrom] at h
    split at h <;> cases h

/-- **Rules that are yielded are delivered**: one for each line that begins a rule, but for the rule
    in which the lines end. -/
theorem delivers_of_yields {number : Nat} {rules : List Rule}
    (h : Yields (blocksFrom number lines) rules none) :
    Delivers lines rules := by
  fun_induction blocksFrom number lines generalizing rules with
  | case1 =>
    cases h
    exact ⟨[], [], rfl, .nil, rfl⟩
  | case2 number line rest hcomment ih =>
    cases h with
    | alone hrest =>
      obtain ⟨begun, lost, hopenings, hbegun, hlost⟩ := ih hrest
      refine ⟨begun, lost, (openings_comment hcomment).trans hopenings, hbegun, ?_⟩
      rw [hlost, endsInside, endsInside, List.foldl_cons, staysInside_comment hcomment]
  | case3 number line rest hcomment ih =>
    have hends : endsInside (line :: rest)
        = (leftOpen line (takenIn line rest) || endsInside (rest.drop (takenIn line rest).length)) := by
      rw [← foldl_goesOn, endsInside, List.foldl_cons, staysInside_opening hcomment]
    rw [Delivers, openings_opening hcomment, openings_goesOn, hends]
    generalize hlater : blocksFrom _ (rest.drop (takenIn line rest).length) = later at h ih
    cases h with
    | rule hclosed hrule hrest =>
      obtain ⟨begun, lost, hopenings, hbegun, hlost⟩ := ih hrest
      refine ⟨line :: begun, lost, ?_, .cons ⟨_, hrule⟩ hbegun, ?_⟩
      · rw [hopenings, List.cons_append]
      · rw [hlost, hclosed, Bool.false_or]
    | leftOpen hopen hrule =>
      rw [eq_nil_of_blocksFrom hlater, hopen]
      exact ⟨[], [line], rfl, .nil, rfl⟩

/-- **Each rule that a text begins is delivered, unless the text ends inside it.**  For every text
    that is read without a failure the rules delivered are, one by one and in order, those of the
    lines that begin a rule. All are delivered exactly if the text does not end inside a rule; if it
    does, only the last is missing. A text whose last line does not go on loses none. -/
theorem length_rules_eq_iff (text : String) (h : (read text).failure = none) :
    Delivers (Text.lines text) (read text).rules ∧
    ((read text).rules.length = (openings false (Text.lines text)).length ↔
      endsInside (Text.lines text) = false) ∧
    ∀ last, (Text.lines text).getLast? = some last → goesOn last = false →
      (read text).rules.length = (openings false (Text.lines text)).length := by
  obtain ⟨rules, hyields, hrules⟩ := Reading.steps_yields (r := {}) ⟨rfl, rfl⟩ 1 (Text.lines text)
  have hdelivers : Delivers (Text.lines text) (read text).rules := by
    rw [show (read text).rules = rules from hrules]
    rw [show (Reading.steps {} 1 (Text.lines text)).failure = none from h] at hyields
    exact delivers_of_yields hyields
  have hall : (read text).rules.length = (openings false (Text.lines text)).length ↔
      endsInside (Text.lines text) = false := by
    rw [hdelivers.length_eq]
    cases endsInside (Text.lines text) <;> simp
  exact ⟨hdelivers, hall, fun last hlast hclosed => hall.mpr (endsInside_eq_false hlast hclosed)⟩

/-- A comment that ends in a backslash does not go on, and a rule that goes on over a comment is
    delivered. -/
theorem length_rules_eq_iff_comments :
    (read "# a \\\n!! * _ A = b\\\n# c\n\n!! * _ D = e").failure = none ∧
    (read "# a \\\n!! * _ A = b\\\n# c\n\n!! * _ D = e").rules.length = 2 ∧
    openings false (Text.lines "# a \\\n!! * _ A = b\\\n# c\n\n!! * _ D = e")
      = ["!! * _ A = b\\", "!! * _ D = e"] := by
  have hread : (read "# a \\\n!! * _ A = b\\\n# c\n\n!! * _ D = e").failure = none := by decide +kernel
  have hopenings : openings false (Text.lines "# a \\\n!! * _ A = b\\\n# c\n\n!! * _ D = e")
      = ["!! * _ A = b\\", "!! * _ D = e"] := by decide +kernel
  have hall := (length_rules_eq_iff _ hread).2.2 "!! * _ D = e" (by decide +kernel) (by decide +kernel)
  rw [hopenings] at hall
  exact ⟨hread, hall, hopenings⟩

/-- A text that ends inside its only rule is read without a failure, and the rule is lost. -/
theorem rule_lost_at_end :
    (read "!! * _ A = b\\").failure = none ∧ (read "!! * _ A = b\\").rules.length = 0 ∧
    openings false (Text.lines "!! * _ A = b\\") = ["!! * _ A = b\\"] ∧
    endsInside (Text.lines "!! * _ A = b\\") = true := by
  decide +kernel

end BuildMeta.Rule
