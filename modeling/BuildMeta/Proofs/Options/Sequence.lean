import BuildMeta.Proofs.Options.Storing
import BuildMeta.Proofs.Text.Cut

/-!
# `Proofs.Options.Sequence` — which rules decide an option

Rules without commands are stored in turn, and each changes the option under its own key only.  So an
option is decided by its first value and the rules that set it, in their order, from the last one that
overrides it on: `storeRules_local`.  Rules that only add and insert keep all words, and the theorem says
in which order.
-/

namespace BuildMeta.Options

variable {target : Target} {options after : Table String} {rule : Rule} {rules : List Rule}
  {key : String}

/-! ## What rules leave behind -/

/-- Storing the rules succeeds, leaves these options behind and the rules as they were, whatever is
    watched. -/
def Target.Leaves (target : Target) (options : Table String) (rules : List Rule) (after : Table String) :
    Prop :=
  ∀ watched, (storeRules target watched options rules).outcome = .ok (after, rules)

theorem leaves_stored (hfree : ∀ rule ∈ rules, CommandFree rule.value.toList) :
    target.Leaves options rules (target.stored options rules) :=
  fun watched => outcome_storeRules_of_commandFree target watched options hfree

/-- An option is decided by its first value and by the rules that set it. -/
theorem Target.Leaves.get? (h : target.Leaves options rules after)
    (hfree : ∀ rule ∈ rules, CommandFree rule.value.toList) (key : String) :
    after.get? key = (rules.filter (target.sets key)).foldl combined (options.get? key) :=
  (storeRules_key (h []) fun rule hrule _ => hfree rule hrule).1

/-! ## Overriding -/

theorem combined_override (old : Option String) (h : rule.command = .override) :
    combined old rule = some rule.value := by
  unfold combined
  rw [h]
  cases old <;> rfl

/-- What comes before an overriding rule is forgotten. -/
theorem foldl_combined_override (old : Option String) (before rest : List Rule)
    (h : rule.command = .override) :
    (before ++ rule :: rest).foldl combined old = rest.foldl combined (some rule.value) := by
  rw [List.foldl_append, List.foldl_cons, combined_override _ h]

/-! ## Adding and inserting words -/

theorem words_combine_add (old new : String) :
    Text.words (Command.add.combine old new) = Text.words old ++ Text.words new := by
  by_cases hold : old = ""
  · subst hold
    rfl
  · rw [Command.combine, if_neg (by simpa using hold), Text.words_append_blank]

theorem words_combine_insert (old new : String) :
    Text.words (Command.insert.combine old new) = Text.words new ++ Text.words old := by
  by_cases hold : old = ""
  · subst hold
    exact (List.append_nil _).symm
  · rw [Command.combine, if_neg (by simpa using hold), Text.words_append_blank]

/-- The words that rules put behind the old ones. -/
def addedWords (rules : List Rule) : List String :=
  (rules.filter (·.command = .add)).flatMap fun rule => Text.words rule.value

/-- The words that rules put before the old ones: those of the last rule come first. -/
def insertedWords (rules : List Rule) : List String :=
  (rules.filter (·.command = .insert)).reverse.flatMap fun rule => Text.words rule.value

/-- The words of an option after rules that add and insert.  The first rule for an option that is not set
    gives it its first value. -/
def wordsAfter : Option String → List Rule → Option (List String)
  | some old, rules => some (insertedWords rules ++ Text.words old ++ addedWords rules)
  | none, [] => none
  | none, first :: rest => some (insertedWords rest ++ Text.words first.value ++ addedWords rest)

/-- Adding puts the words of a rule behind those before, and inserting puts them in front, so the
    words of all rules stand around the old ones. -/
theorem words_foldl_combined (old : String)
    (h : ∀ rule ∈ rules, rule.command = .add ∨ rule.command = .insert) :
    (rules.foldl combined (some old)).map Text.words
      = some (insertedWords rules ++ Text.words old ++ addedWords rules) := by
  induction rules generalizing old with
  | nil => simp [insertedWords, addedWords]
  | cons rule rest ih =>
    have hrest := fun text => ih text fun r hr => h r (List.mem_cons_of_mem _ hr)
    have hstep : combined (some old) rule = some (rule.command.combine old rule.value) := rfl
    rw [List.foldl_cons, hstep, hrest]
    rcases h rule List.mem_cons_self with hadd | hinsert
    · rw [hadd, words_combine_add]
      simp [insertedWords, addedWords, hadd]
    · rw [hinsert, words_combine_insert]
      simp [insertedWords, addedWords, hinsert]

/-- **Adding and inserting keeps all words.** -/
theorem words_foldl_combined_eq (old : Option String)
    (h : ∀ rule ∈ rules, rule.command = .add ∨ rule.command = .insert) :
    (rules.foldl combined old).map Text.words = wordsAfter old rules := by
  cases old with
  | some old => exact words_foldl_combined old h
  | none =>
    cases rules with
    | nil => rfl
    | cons first rest =>
      exact words_foldl_combined first.value fun r hr => h r (List.mem_cons_of_mem _ hr)

/-! ## Storing rules in turn -/

/-- **An option is decided by the rules that set it, in their order.**  Rules without commands can always
    be stored.  What they leave under a key depends only on the value before and on the rules for the key
    that apply and are no substitutions, not on the platform and flavour or on the rules between them: so
    lists with the same such rules for every key leave the same options.  Storing a list is storing any
    first part of it and then the rest.  The values and the rules for a key before a rule that overrides
    it do not count.  Where the rules for a key only add and insert, all words are kept: those inserted,
    the last rule first, then the old ones, then those added. -/
theorem storeRules_local (target : Target) (options : Table String) (rules : List Rule)
    (hfree : ∀ rule ∈ rules, CommandFree rule.value.toList) :
    ∃ after, target.Leaves options rules after ∧
      (∀ target' options' rules' after' key, (∀ rule ∈ rules', CommandFree rule.value.toList) →
        Target.Leaves target' options' rules' after' → options'.get? key = options.get? key →
        rules'.filter (target'.sets key) = rules.filter (target.sets key) →
        after'.get? key = after.get? key) ∧
      (∀ before rest, rules = before ++ rest →
        ∃ middle, target.Leaves options before middle ∧ target.Leaves middle rest after) ∧
      (∀ before rule rest key, rules = before ++ rule :: rest → target.sets key rule = true →
        rule.command = .override → ∀ options' before' after',
          (∀ rule ∈ before', CommandFree rule.value.toList) →
          target.Leaves options' (before' ++ rule :: rest) after' →
          after'.get? key = after.get? key) ∧
      ∀ key, (∀ rule ∈ rules.filter (target.sets key), rule.command = .add ∨ rule.command = .insert) →
        (after.get? key).map Text.words
          = wordsAfter (options.get? key) (rules.filter (target.sets key)) := by
  have hleaves : target.Leaves options rules (target.stored options rules) := leaves_stored hfree
  refine ⟨target.stored options rules, hleaves, ?_, ?_, ?_, ?_⟩
  · intro target' options' rules' after' key hfree' hleaves' hoptions hsame
    rw [hleaves'.get? hfree', hleaves.get? hfree, hsame, hoptions]
  · rintro before rest rfl
    refine ⟨target.stored options before, leaves_stored fun r hr => ?_, ?_⟩
    · exact hfree r (List.mem_append_left _ hr)
    · rw [stored_append]
      exact leaves_stored fun r hr => hfree r (List.mem_append_right _ hr)
  · rintro before rule rest key rfl hsets hover options' before' after' hbefore' hleaves'
    have hfree' : ∀ r ∈ before' ++ rule :: rest, CommandFree r.value.toList := by
      intro r hr
      rcases List.mem_append.mp hr with hr | hr
      · exact hbefore' r hr
      · exact hfree r (List.mem_append_right _ hr)
    -- The overriding rule is among the rules for the key on both sides.
    have hfilter : ∀ front, (front ++ rule :: rest).filter (target.sets key)
        = front.filter (target.sets key) ++ rule :: rest.filter (target.sets key) := by
      intro front
      rw [List.filter_append, List.filter_cons_of_pos hsets]
    rw [hleaves'.get? hfree', hleaves.get? hfree, hfilter, hfilter, foldl_combined_override _ _ _ hover,
      foldl_combined_override _ _ _ hover]
  · intro key hcommands
    rw [hleaves.get? hfree]
    exact words_foldl_combined_eq _ hcommands

/-! ## Rules for two keys -/

/-- A build on Unix. -/
def unixTarget : Target := { uplid := { osType := "unix" }, ufid := {}, shell := .ok }

/-- The rule for the compiler. -/
def compilerRule : Rule := ⟨.override, {}, {}, "CC", "gcc"⟩

/-- Rules for flags around the one for the compiler: one of them is for another platform, and one is a
    substitution. -/
def interleaved : List Rule :=
  [⟨.add, {}, {}, "FLAGS", "-a"⟩, ⟨.append, {}, {}, "CC", "cc"⟩, ⟨.insert, {}, {}, "FLAGS", "-b  -c"⟩,
    compilerRule, ⟨.override, { osType := "windows" }, {}, "FLAGS", "/w"⟩,
    ⟨.add, {}, {}, "FLAGS", "$(subst x,y,z)"⟩, ⟨.add, {}, {}, "FLAGS", "-d"⟩]

/-- The flags are those of the rules that are taken, and the compiler is that of the overriding
    rule, as if it were the only one. -/
theorem storeRules_local_interleaved :
    (∀ rule ∈ interleaved, CommandFree rule.value.toList) ∧ ∃ after,
      unixTarget.Leaves (.ofList [("FLAGS", "-o"), ("CC", "c89")]) interleaved after ∧
      (after.get? "FLAGS").map Text.words = some ["-b", "-c", "-o", "-a", "-d"] ∧
      after.get? "CC" = some "gcc" := by
  have hfree : ∀ rule ∈ interleaved, CommandFree rule.value.toList := by decide +kernel
  obtain ⟨after, hleaves, _, _, hoverride, hwords⟩ :=
    storeRules_local unixTarget (.ofList [("FLAGS", "-o"), ("CC", "c89")]) interleaved hfree
  refine ⟨hfree, after, hleaves, ?_, ?_⟩
  · rw [hwords "FLAGS" (by decide +kernel)]
    decide +kernel
  · have halone : unixTarget.Leaves ∅ (compilerRule :: interleaved.drop 4)
        (unixTarget.stored ∅ (compilerRule :: interleaved.drop 4)) :=
      leaves_stored (by decide +kernel)
    have hsame := hoverride (interleaved.take 3) compilerRule (interleaved.drop 4) "CC" rfl
      (by decide +kernel) rfl ∅ [] _ (by simp) halone
    rw [← hsame]
    decide +kernel

end BuildMeta.Options
