import BuildMeta.Options.Store
import BuildMeta.Proofs.Outcome
import Mathlib.Data.List.TakeWhile

/-!
# `Proofs.Options.Storing` — what storing rules does to options

A rule is taken if it applies and is no substitution; only taken rules change the options, and each
changes the option under its own key.

* `outcome_storeRule` — one rule, in terms of outcomes: what is reported on the way is left out;
* `CommandFree`, `outcome_storeRules_of_commandFree` — without commands in the values, storing is a fold
  over the taken rules that never fails and leaves the rules as they are;
* `storeRules_key` — with commands elsewhere, the option under one key is still a fold over the taken
  rules for that key, as long as these hold no command.
-/

namespace BuildMeta.Options

variable {target : Target} {watched : List String} {options options' : Table String}
  {rule : Rule} {rules rules' : List Rule} {key : String}

/-! ## Values without commands -/

/-- A text holds no shell command: neither one between escaped quotes, nor a shell call at its front. -/
structure CommandFree (value : List Char) : Prop where
  quoted : ∀ before command after, command ≠ [] → '`' ∉ command →
    value ≠ before ++ quoteMark ++ command ++ '`' :: endQuoteMark ++ after
  call : ∀ command after, command ≠ [] → ')' ∉ command → value ≠ callMark ++ command ++ ')' :: after

/-- Reading up to a mark takes a part that is not empty and does not hold the mark. -/
theorem eq_of_upTo? {stop : Char} {s front rest : List Char} (h : upTo? stop s = some (front, rest)) :
    s = front ++ stop :: rest ∧ front ≠ [] ∧ stop ∉ front := by
  unfold upTo? at h
  split at h
  · rename_i c cs d ds hfront hrest
    cases h
    have hd : d = stop := by
      have hhead := List.head_dropWhile_not (p := (· != stop)) (l := s) (by rw [hrest]; simp)
      simpa [hrest] using hhead
    refine ⟨?_, by simp, fun hin => ?_⟩
    · rw [← hd, ← hfront, ← hrest]
      exact (List.takeWhile_append_dropWhile).symm
    · rw [← hfront] at hin
      simpa using List.mem_takeWhile_imp hin
  · cases h

theorem isPrefixOf_append_drop {front s : List Char} (h : front.isPrefixOf s = true) :
    s = front ++ s.drop front.length := by
  obtain ⟨rest, rfl⟩ := List.isPrefixOf_iff_prefix.mp h
  rw [List.drop_left]

/-- A quoted command is read as it is written: between its marks, not empty, without a mark
    inside. -/
theorem eq_of_quotedCommandAt? {s command after : List Char}
    (h : quotedCommandAt? s = some (command, after)) :
    s = quoteMark ++ command ++ '`' :: endQuoteMark ++ after ∧ command ≠ [] ∧ '`' ∉ command := by
  unfold quotedCommandAt? at h
  by_cases hmark : quoteMark.isPrefixOf s = true
  · rw [if_pos hmark] at h
    split at h
    · rename_i front rest hup
      obtain ⟨hs, hne, hnot⟩ := eq_of_upTo? hup
      by_cases hend : endQuoteMark.isPrefixOf rest = true
      · rw [if_pos hend] at h
        cases h
        refine ⟨?_, hne, hnot⟩
        have hwhole := isPrefixOf_append_drop hmark
        rw [show quoteMark.length = 3 from rfl, hs, isPrefixOf_append_drop hend,
          show endQuoteMark.length = 2 from rfl] at hwhole
        simpa [List.append_assoc] using hwhole
      · rw [if_neg hend] at h
        cases h
    · cases h
  · rw [if_neg hmark] at h
    cases h

/-- The first quoted command of a text, with what is before and behind it. -/
theorem eq_of_quotedCommand? {s before command after : List Char}
    (h : quotedCommand? s = some (before, command, after)) :
    s = before ++ quoteMark ++ command ++ '`' :: endQuoteMark ++ after ∧ command ≠ [] ∧
      '`' ∉ command := by
  induction s generalizing before with
  | nil => cases h
  | cons c rest ih =>
    rw [quotedCommand?] at h
    split at h
    · rename_i hat
      cases h
      exact eq_of_quotedCommandAt? hat
    · obtain ⟨⟨front, _, _⟩, hrest, heq⟩ := Option.map_eq_some_iff.mp h
      cases heq
      obtain ⟨hs, hne, hnot⟩ := ih hrest
      exact ⟨by rw [hs]; rfl, hne, hnot⟩

/-- A call of the shell is read as it is written. -/
theorem eq_of_shellCall? {s command : List Char} (h : shellCall? s = some command) :
    ∃ after, s = callMark ++ command ++ ')' :: after ∧ command ≠ [] ∧ ')' ∉ command := by
  unfold shellCall? at h
  by_cases hmark : callMark.isPrefixOf s = true
  · rw [if_pos hmark] at h
    obtain ⟨⟨front, rest⟩, hup, rfl⟩ := Option.map_eq_some_iff.mp h
    obtain ⟨hs, hne, hnot⟩ := eq_of_upTo? hup
    refine ⟨rest, ?_, hne, hnot⟩
    have hwhole := isPrefixOf_append_drop hmark
    rw [show callMark.length = 7 from rfl, hs] at hwhole
    rw [hwhole, List.append_assoc]
  · rw [if_neg hmark] at h
    cases h

/-- The other way round: what is written before a mark is read up to it. -/
theorem upTo?_append {stop : Char} {front : List Char} (hne : front ≠ []) (hnot : stop ∉ front)
    (rest : List Char) : upTo? stop (front ++ stop :: rest) = some (front, rest) := by
  have hall : ∀ c ∈ front, (c != stop) = true := by
    intro c hc
    rw [bne_iff_ne]
    rintro rfl
    exact hnot hc
  have htake : (front ++ stop :: rest).takeWhile (· != stop) = front := by
    rw [List.takeWhile_append_of_pos hall, List.takeWhile_cons_of_neg (by simp), List.append_nil]
  have hdrop : (front ++ stop :: rest).dropWhile (· != stop) = stop :: rest := by
    rw [List.dropWhile_append_of_pos hall, List.dropWhile_cons_of_neg (by simp)]
  obtain ⟨c, cs, rfl⟩ := List.exists_cons_of_ne_nil hne
  unfold upTo?
  rw [htake, hdrop]

/-- A text in which a quoted command is written somewhere has a first one. -/
theorem quotedCommand?_ne_none {before command after : List Char} (hne : command ≠ [])
    (hnot : '`' ∉ command) :
    quotedCommand? (before ++ quoteMark ++ command ++ '`' :: endQuoteMark ++ after) ≠ none := by
  induction before with
  | nil =>
    have hat : quotedCommandAt? ('\\' :: '"' :: '`' :: (command ++ '`' :: (endQuoteMark ++ after)))
        = some (command, after) := by
      have hdrop : ('\\' :: '"' :: '`' :: (command ++ '`' :: (endQuoteMark ++ after))).drop 3
          = command ++ '`' :: (endQuoteMark ++ after) := rfl
      unfold quotedCommandAt?
      rw [if_pos (by rfl), hdrop, upTo?_append hne hnot]
      rfl
    simp only [List.append_assoc, List.cons_append]
    show quotedCommand? ('\\' :: '"' :: '`' :: (command ++ '`' :: (endQuoteMark ++ after))) ≠ none
    rw [quotedCommand?, hat]
    simp
  | cons c before ih =>
    simp only [List.cons_append]
    rw [quotedCommand?]
    split
    · simp
    · rw [Ne, Option.map_eq_none_iff]
      exact ih

/-- Whether a text holds a command can be found out. -/
theorem commandFree_iff {value : List Char} :
    CommandFree value ↔ quotedCommand? value = none ∧ shellCall? value = none := by
  constructor
  · intro h
    constructor
    · cases hq : quotedCommand? value with
      | none => rfl
      | some found =>
        obtain ⟨hs, hne, hnot⟩ := eq_of_quotedCommand? hq
        exact absurd hs (h.quoted _ _ _ hne hnot)
    · cases hc : shellCall? value with
      | none => rfl
      | some command =>
        obtain ⟨after, hs, hne, hnot⟩ := eq_of_shellCall? hc
        exact absurd hs (h.call _ _ hne hnot)
  · rintro ⟨hquoted, hcall⟩
    refine ⟨fun before command after hne hnot hs => ?_, fun command after hne hnot hs => ?_⟩
    · rw [hs] at hquoted
      exact quotedCommand?_ne_none hne hnot hquoted
    · have hfound : shellCall? (callMark ++ (command ++ ')' :: after)) = some command := by
        show (upTo? ')' (command ++ ')' :: after)).map Prod.fst = _
        rw [upTo?_append hne hnot]
        rfl
      rw [hs, List.append_assoc, hfound] at hcall
      cases hcall

instance : DecidablePred CommandFree := fun _ => decidable_of_iff _ commandFree_iff.symm

/-- A value without commands is kept as it is. -/
theorem expand_of_commandFree {value : String} (h : CommandFree value.toList) (shell : Shell) :
    expand shell value = .ok value := by
  obtain ⟨hquoted, hcall⟩ := commandFree_iff.mp h
  unfold expand
  rw [expandQuoted, hquoted, Failure.ok_bind, expandCall, hcall]

/-! ## One rule -/

/-- A rule is combined with the options: it applies and is no substitution. -/
def Target.takes (target : Target) (rule : Rule) : Bool :=
  rule.appliesTo target.uplid target.ufid && !isSubstitution rule.value.toList

/-- What storing a rule comes to: a rule that is taken is expanded and put into the table, and any
    other is passed over. -/
theorem outcome_storeRule (target : Target) (watched : List String) (options : Table String)
    (rule : Rule) :
    (storeRule target watched options rule).outcome
      = if target.takes rule then
          expand target.shell rule.value >>= fun value =>
            .ok (put options { rule with value }, { rule with value })
        else .ok (options, rule) := by
  have hreport : ∀ n : Notice,
      (if watched.contains rule.key then Logged.tell n else pure () : Logged Unit).outcome = .ok () := by
    intro n
    split <;> rfl
  unfold storeRule Target.takes
  by_cases happlies : rule.appliesTo target.uplid target.ufid = true
  · by_cases hsubst : isSubstitution rule.value.toList = true
    · simp only [happlies, hsubst, Bool.not_true, Bool.false_eq_true, if_false, if_true,
        Bool.and_false, Logged.outcome_bind, hreport, Failure.ok_bind, Logged.outcome_pure]
    · simp only [happlies, hsubst, Bool.not_true, Bool.not_false, Bool.false_eq_true, if_false, if_true,
        Bool.and_self, Logged.outcome_bind, hreport, Failure.ok_bind, Logged.outcome_pure]
      rfl
  · simp only [happlies, Bool.not_false, Bool.false_eq_true, if_false, if_true, Bool.false_and,
      Logged.outcome_bind, hreport, Failure.ok_bind, Logged.outcome_pure]

/-- Rules are stored one after the other, each in the table that the one before has left. -/
theorem outcome_storeRules_cons (target : Target) (watched : List String) (options : Table String)
    (rule : Rule) (rules : List Rule) :
    (storeRules target watched options (rule :: rules)).outcome
      = (storeRule target watched options rule).outcome >>= fun r =>
          (storeRules target watched r.1 rules).outcome >>= fun rs => .ok (rs.1, r.2 :: rs.2) := by
  rw [storeRules, Logged.outcome_bind]
  refine congrArg (_ >>= ·) (funext fun r => ?_)
  rw [Logged.outcome_bind]
  rfl

/-- Storing a rule succeeds with the rule not taken, or taken with an expanded value. -/
theorem storeRule_cases {rule' : Rule}
    (h : (storeRule target watched options rule).outcome = .ok (options', rule')) :
    (target.takes rule = false ∧ options' = options ∧ rule' = rule) ∨
    (target.takes rule = true ∧ ∃ value, expand target.shell rule.value = .ok value ∧
      rule' = { rule with value } ∧ options' = put options rule') := by
  rw [outcome_storeRule] at h
  by_cases htakes : target.takes rule = true
  · rw [if_pos htakes] at h
    obtain ⟨value, hvalue, hout⟩ := Failure.bind_eq_ok_iff.mp h
    cases hout
    exact Or.inr ⟨htakes, value, hvalue, rfl, rfl⟩
  · rw [if_neg htakes] at h
    cases h
    exact Or.inl ⟨by simpa using htakes, rfl, rfl⟩

/-! ## Rules without commands -/

/-- The options after the rules, none of which holds a command: the taken ones are combined in turn. -/
def Target.stored (target : Target) (options : Table String) (rules : List Rule) : Table String :=
  (rules.filter target.takes).foldl put options

theorem stored_append (target : Target) (options : Table String) (rules more : List Rule) :
    target.stored options (rules ++ more) = target.stored (target.stored options rules) more := by
  unfold Target.stored
  rw [List.filter_append, List.foldl_append]

theorem stored_cons (target : Target) (options : Table String) (rule : Rule) (rules : List Rule) :
    target.stored options (rule :: rules)
      = target.stored (if target.takes rule then put options rule else options) rules := by
  unfold Target.stored
  by_cases htakes : target.takes rule = true
  · rw [List.filter_cons_of_pos htakes, if_pos htakes, List.foldl_cons]
  · rw [List.filter_cons_of_neg htakes, if_neg htakes]

/-- **Without commands storing is a fold** that never fails and keeps the rules. -/
theorem outcome_storeRules_of_commandFree (target : Target) (watched : List String)
    (options : Table String) (h : ∀ rule ∈ rules, CommandFree rule.value.toList) :
    (storeRules target watched options rules).outcome = .ok (target.stored options rules, rules) := by
  induction rules generalizing options with
  | nil => rfl
  | cons rule rest ih =>
    have hrule := expand_of_commandFree (h rule List.mem_cons_self) target.shell
    have hrest := fun options => ih options fun r hr => h r (List.mem_cons_of_mem _ hr)
    rw [outcome_storeRules_cons, outcome_storeRule, hrule, stored_cons]
    by_cases htakes : target.takes rule = true
    · rw [if_pos htakes, if_pos htakes, Failure.ok_bind, Failure.ok_bind, hrest, Failure.ok_bind]
    · rw [if_neg htakes, if_neg htakes, Failure.ok_bind, hrest, Failure.ok_bind]

/-- A rule without commands is stored without running anything, and stays as it is. -/
theorem storeRule_eq_pure (target : Target) (options : Table String)
    (h : CommandFree rule.value.toList) :
    storeRule target [] options rule
      = pure (if target.takes rule then put options rule else options, rule) := by
  unfold storeRule Target.takes
  simp only [List.contains_nil, Bool.false_eq_true, if_false, pure_bind, expand_of_commandFree h]
  by_cases happlies : rule.appliesTo target.uplid target.ufid = true
  · by_cases hsubst : isSubstitution rule.value.toList = true
    · simp [happlies, hsubst]
    · simp [happlies, hsubst]
  · simp [happlies]

/-- Where nothing is watched, nothing is said either. -/
theorem storeRules_eq_pure (target : Target) (options : Table String)
    (h : ∀ rule ∈ rules, CommandFree rule.value.toList) :
    storeRules target [] options rules = pure (target.stored options rules, rules) := by
  induction rules generalizing options with
  | nil => rfl
  | cons rule rest ih =>
    have hrest := fun options => ih options fun r hr => h r (List.mem_cons_of_mem _ hr)
    rw [storeRules, storeRule_eq_pure target options (h rule List.mem_cons_self), pure_bind]
    show storeRules target [] _ rest >>= _ = _
    rw [hrest, pure_bind, stored_cons]

/-! ## One key -/

/-- The text of an option after a rule for it. -/
def combined (old : Option String) (rule : Rule) : Option String :=
  some (match old with
    | none => rule.value
    | some old => rule.command.combine old rule.value)

/-- Only the option of the rule changes, by the command of the rule. -/
theorem get?_put (options : Table String) (rule : Rule) (key : String) :
    (put options rule).get? key
      = if rule.key = key then combined (options.get? key) rule else options.get? key := by
  unfold put
  by_cases hkey : rule.key = key
  · subst hkey
    rw [Table.get?_set_self, if_pos rfl]
    rfl
  · rw [Table.get?_set_of_ne _ _ (Ne.symm hkey), if_neg hkey]

/-- A rule changes the option under a key. -/
def Target.sets (target : Target) (key : String) (rule : Rule) : Bool :=
  rule.key == key && target.takes rule

/-- One rule: the option under a key changes only if the rule sets it, and whether a rule sets the key
    is the same after its commands are carried out. -/
theorem storeRule_key {rule' : Rule}
    (h : (storeRule target watched options rule).outcome = .ok (options', rule'))
    (hfree : target.sets key rule = true → CommandFree rule.value.toList) :
    options'.get? key
      = (if target.sets key rule then combined (options.get? key) rule else options.get? key) ∧
    target.sets key rule' = target.sets key rule ∧ (target.sets key rule = true → rule' = rule) := by
  rcases storeRule_cases h with ⟨htakes, rfl, rfl⟩ | ⟨htakes, value, hvalue, rfl, rfl⟩
  · have hsets : target.sets key rule' = false := by rw [Target.sets, htakes, Bool.and_false]
    simp [hsets]
  · by_cases hkey : rule.key = key
    · have hsets : target.sets key rule = true := by simp [Target.sets, hkey, htakes]
      rw [expand_of_commandFree (hfree hsets), Except.ok.injEq] at hvalue
      subst hvalue
      rw [get?_put, if_pos hkey, if_pos hsets]
      exact ⟨rfl, rfl, fun _ => rfl⟩
    · have hsets : ∀ value, target.sets key { rule with value } = false := by
        intro value
        simp [Target.sets, hkey]
      have hrule : target.sets key rule = false := hsets rule.value
      rw [get?_put, if_neg hkey, hsets value, hrule]
      simp

/-- **The option under a key is a fold over the rules that set it**, if these hold no command, whatever
    commands other rules hold. -/
theorem storeRules_key (h : (storeRules target watched options rules).outcome = .ok (options', rules'))
    (hfree : ∀ rule ∈ rules, target.sets key rule = true → CommandFree rule.value.toList) :
    options'.get? key = (rules.filter (target.sets key)).foldl combined (options.get? key) ∧
    rules'.filter (target.sets key) = rules.filter (target.sets key) := by
  induction rules generalizing options rules' with
  | nil =>
    cases h
    exact ⟨rfl, rfl⟩
  | cons rule rest ih =>
    rw [outcome_storeRules_cons] at h
    obtain ⟨⟨options₁, rule'⟩, hrule, hmore⟩ := Failure.bind_eq_ok_iff.mp h
    obtain ⟨⟨options₂, rest'⟩, hrest, hout⟩ := Failure.bind_eq_ok_iff.mp hmore
    cases hout
    obtain ⟨hget, hsame, heq⟩ := storeRule_key hrule (hfree rule List.mem_cons_self)
    obtain ⟨hget', hrules⟩ := ih hrest fun r hr => hfree r (List.mem_cons_of_mem _ hr)
    by_cases hsets : target.sets key rule = true
    · rw [if_pos hsets] at hget
      obtain rfl := heq hsets
      rw [List.filter_cons_of_pos hsets, List.filter_cons_of_pos hsets, List.foldl_cons, ← hget]
      exact ⟨hget', congrArg _ hrules⟩
    · rw [if_neg hsets] at hget
      have hsets' : ¬ target.sets key rule' = true := by rw [hsame]; exact hsets
      rw [List.filter_cons_of_neg hsets, List.filter_cons_of_neg hsets', ← hget]
      exact ⟨hget', hrules⟩

end BuildMeta.Options
