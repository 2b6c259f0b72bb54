import BuildMeta.Proofs.Options.Storing

/-!
# `Proofs.Options.Repeating` — storing the same rules once more

A rule keeps its value with the commands carried out, so the next time it is stored with what the first
time has left of it.  Only one command between quotes is carried out at a time, and what a command prints
may itself hold a command or be a substitution.  `Target.Settles` says that the first time leaves nothing
to do; `repeats_iff_settles` that such rules, and no others, can be stored again and again.
-/

namespace BuildMeta.Options

variable {target : Target} {watched watched' : List String} {options options' : Table String}
  {rule : Rule} {rules rules' : List Rule}

/-- Rules that were stored once leave equal options behind when they are stored again. -/
def Target.Repeats (target : Target) (rules : List Rule) : Prop :=
  ∀ watched watched' options options' rules',
    (storeRules target watched options rules).outcome = .ok (options', rules') →
    ∃ rules'', (storeRules target watched' options rules').outcome = .ok (options', rules'')

/-- A rule that is taken has nothing left to be carried out once its commands were: its new value is no
    substitution, and is kept as it is. -/
def Target.Settles (target : Target) (rule : Rule) : Prop :=
  target.takes rule = true → ∀ value, expand target.shell rule.value = .ok value →
    isSubstitution value.toList = false ∧ expand target.shell value = .ok value

/-! ## One rule -/

/-- Whether a rule applies does not depend on its value. -/
theorem takes_of_value (htakes : target.takes rule = true) {value : String}
    (hsubst : isSubstitution value.toList = false) : target.takes { rule with value } = true := by
  unfold Target.takes at htakes ⊢
  rw [Bool.and_eq_true] at htakes
  rw [Bool.and_eq_true, Bool.not_eq_true']
  exact ⟨htakes.1, hsubst⟩

/-- A rule that settles is stored the second time as it was the first time. -/
theorem Target.Settles.storeRule_again (h : target.Settles rule) {rule' : Rule}
    (hfirst : (storeRule target watched options rule).outcome = .ok (options', rule')) :
    (storeRule target watched' options rule').outcome = .ok (options', rule') := by
  rcases storeRule_cases hfirst with ⟨htakes, rfl, rfl⟩ | ⟨htakes, value, hvalue, rfl, rfl⟩
  · rw [outcome_storeRule, if_neg (ne_true_of_eq_false htakes)]
  · obtain ⟨hsubst, hagain⟩ := h htakes value hvalue
    rw [outcome_storeRule, if_pos (takes_of_value htakes hsubst), hagain, Failure.ok_bind]

/-- A rule that can be stored again alone, with any options, settles. -/
theorem Target.Repeats.settles (h : target.Repeats [rule]) : target.Settles rule := by
  intro htakes value hvalue
  -- From the empty table the value itself is what is left under the key.
  have hfirst : (storeRules target [] ∅ [rule]).outcome
      = .ok (put ∅ { rule with value }, [{ rule with value }]) := by
    rw [outcome_storeRules_cons, outcome_storeRule, if_pos htakes, hvalue]
    rfl
  obtain ⟨rules'', hagain⟩ := h [] [] ∅ _ _ hfirst
  rw [outcome_storeRules_cons] at hagain
  obtain ⟨⟨options₁, rule₁⟩, hone, hrest⟩ := Failure.bind_eq_ok_iff.mp hagain
  obtain rfl : options₁ = put ∅ { rule with value } := by
    cases hrest
    rfl
  have hget : ∀ v : String, (put ∅ { rule with value := v }).get? rule.key = some v := by
    intro v
    rw [get?_put, if_pos rfl]
    rfl
  rcases storeRule_cases hone with ⟨_, hempty, _⟩ | ⟨htakes', value', hvalue', rfl, hput⟩
  · -- The rule is passed over this time, which leaves no option at all.
    have hnone := congrArg (Table.get? · rule.key) hempty
    simp only [hget] at hnone
    cases hnone
  · have hsame := congrArg (Table.get? · rule.key) hput
    simp only [hget, Option.some.injEq] at hsame
    subst hsame
    refine ⟨?_, hvalue'⟩
    unfold Target.takes at htakes'
    rw [Bool.and_eq_true, Bool.not_eq_true'] at htakes'
    exact htakes'.2

/-! ## Lists of rules -/

/-- Rules that settle are kept as they are from the first time on. -/
theorem storeRules_again (h : ∀ rule ∈ rules, target.Settles rule)
    (hfirst : (storeRules target watched options rules).outcome = .ok (options', rules')) :
    (storeRules target watched' options rules').outcome = .ok (options', rules') := by
  induction rules generalizing options rules' with
  | nil =>
    cases hfirst
    rfl
  | cons rule rest ih =>
    rw [outcome_storeRules_cons] at hfirst
    obtain ⟨⟨options₁, rule'⟩, hrule, hmore⟩ := Failure.bind_eq_ok_iff.mp hfirst
    obtain ⟨⟨options₂, rest'⟩, hrest, hout⟩ := Failure.bind_eq_ok_iff.mp hmore
    cases hout
    have hrule' : (storeRule target watched' options rule').outcome = .ok (options₁, rule') :=
      (h rule List.mem_cons_self).storeRule_again hrule
    have hrest' := ih (fun r hr => h r (List.mem_cons_of_mem _ hr)) hrest
    rw [outcome_storeRules_cons, hrule', Failure.ok_bind, hrest', Failure.ok_bind]

/-- **Rules can be stored again exactly if each of them settles.**  All parts of a list of rules, from
    single rules to the whole list, leave equal options behind the second time if and only if the
    commands that are carried out the first time leave no command and no substitution in any rule
    that is taken. (A part may still repeat by chance, if a later rule overrides the difference.) -/
theorem repeats_iff_settles (target : Target) (rules : List Rule) :
    (∀ part, part.Sublist rules → target.Repeats part) ↔ ∀ rule ∈ rules, target.Settles rule := by
  constructor
  · intro h rule hrule
    exact (h [rule] (List.singleton_sublist.mpr hrule)).settles
  · intro h part hpart watched watched' options options' rules' hfirst
    exact ⟨rules', storeRules_again (fun rule hrule => h rule (hpart.subset hrule)) hfirst⟩

/-! ## A rule with two commands -/

/-- A build for no platform in particular, with a shell that prints every command. -/
def printingTarget : Target := { uplid := {}, ufid := {}, shell := .ok }

/-- A rule with a value. -/
def flagsRule (value : String) : Rule := ⟨.add, {}, {}, "FLAGS", value⟩

/-- One rule stored by itself leaves its expanded value, in the table and in the rule. -/
theorem outcome_store_flagsRule {value value' : String}
    (htakes : printingTarget.takes (flagsRule value) = true)
    (hvalue : expand printingTarget.shell value = .ok value') :
    (storeRules printingTarget [] ∅ [flagsRule value]).outcome
      = .ok (.ofList [("FLAGS", value')], [flagsRule value']) := by
  rw [outcome_storeRules_cons, outcome_storeRule, if_pos htakes]
  show (expand printingTarget.shell value >>= _) >>= _ = _
  rw [hvalue]
  rfl

/-- **The second time may leave other options behind than the first**: only the first of two commands is
    carried out, and the other one when the rule is stored again. -/
theorem storeRules_twice_differs :
    (storeRules printingTarget [] ∅ [flagsRule "\\\"`a`\\\" \\\"`b`\\\""]).outcome
      = .ok (.ofList [("FLAGS", "\"a\" \\\"`b`\\\"")], [flagsRule "\"a\" \\\"`b`\\\""]) ∧
    (storeRules printingTarget [] ∅ [flagsRule "\"a\" \\\"`b`\\\""]).outcome
      = .ok (.ofList [("FLAGS", "\"a\" \"b\"")], [flagsRule "\"a\" \"b\""]) ∧
    (Table.ofList [("FLAGS", "\"a\" \"b\"")]).get? "FLAGS"
      ≠ (Table.ofList [("FLAGS", "\"a\" \\\"`b`\\\"")]).get? "FLAGS" := by
  refine ⟨outcome_store_flagsRule ?_ ?_, outcome_store_flagsRule ?_ ?_, ?_⟩
  all_goals decide +kernel

end BuildMeta.Options
