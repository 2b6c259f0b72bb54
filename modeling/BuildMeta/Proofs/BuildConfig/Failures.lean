import BuildMeta.Proofs.BuildConfig.Steps
import BuildMeta.Proofs.Digraph.Levels
import BuildMeta.Proofs.Options.Solution

/-!
# `Proofs.BuildConfig.Failures` — only cyclic dependencies fail with a cycle

Making a configuration can fail for many reasons.  A cycle is reported by one step alone, the search for
the levels below a unit, so there is none where the dependencies have no cycle: `cycleless_make`.
-/

namespace BuildMeta

open Failure

/-! ## Flags -/

namespace FlagStyle

theorem cycleless_name? (form : FlagForm) (flag : String) : Cycleless (form.name? flag) := by
  unfold FlagForm.name?
  split
  · exact Cycleless.ok _
  · split
    · exact Cycleless.ok _
    · exact Cycleless.of_error (by simp)

theorem cycleless_compileParts (style : FlagStyle) (flags : List String) :
    Cycleless (style.compileParts flags) := by
  refine (Cycleless.mapM (fun flag => ?_) flags).bind fun _ _ => Cycleless.ok _
  exact (cycleless_name? _ flag).bind fun _ _ => Cycleless.ok _

/-- Taking a flag apart fails for its form at most. -/
theorem cycleless_linkFlag (style : FlagStyle) (flag : String) : Cycleless (style.linkFlag flag) := by
  unfold linkFlag
  by_cases hshared : (some flag == style.sharedMarker) = true
  · rw [if_pos hshared]
    exact Cycleless.ok _
  · rw [if_neg hshared]
    by_cases hstatic : (some flag == style.staticMarker) = true
    · rw [if_pos hstatic]
      exact Cycleless.ok _
    · rw [if_neg hstatic]
      refine (cycleless_name? _ flag).bind fun dir? _ => ?_
      cases dir? with
      | some dir => exact Cycleless.ok _
      | none =>
        refine (cycleless_name? _ flag).bind fun name? _ => ?_
        cases name? with
        | some name => exact Cycleless.ok _
        | none => exact Cycleless.ok _

theorem cycleless_linkParts (style : FlagStyle) (flags : List String) :
    Cycleless (style.linkParts flags) := by
  refine (Cycleless.mapM (fun flag => ?_) flags).bind fun _ _ => Cycleless.ok _
  exact (cycleless_linkFlag style flag).bind fun _ _ => Cycleless.ok _

end FlagStyle

namespace BuildFlags

open FlagStyle

variable (style : FlagStyle) (options exports : Table String)

theorem cycleless_optionWords (key : String) : Cycleless (optionWords options key) := by
  unfold optionWords
  cases options.get? key with
  | some value => exact Cycleless.ok _
  | none => exact Cycleless.of_error (by simp)

theorem cycleless_commandFlags (key : String) : Cycleless (commandFlags options key) :=
  (cycleless_optionWords options key).bind fun _ _ => Cycleless.ok _

/-- Making flags from options may fail for many reasons, among which there is no cycle. -/
theorem cycleless_ofOptions : Cycleless (ofOptions style options) := by
  refine (cycleless_commandFlags options _).bind fun _ _ => ?_
  refine (cycleless_commandFlags options _).bind fun _ _ => ?_
  refine (cycleless_commandFlags options _).bind fun _ _ => ?_
  refine (cycleless_optionWords options _).bind fun _ _ => ?_
  refine (cycleless_compileParts style _).bind fun _ _ => ?_
  refine (cycleless_optionWords options _).bind fun _ _ => ?_
  refine (cycleless_compileParts style _).bind fun _ _ => ?_
  refine (cycleless_optionWords options _).bind fun _ _ => ?_
  refine (cycleless_linkParts style _).bind fun _ _ => ?_
  refine (cycleless_optionWords options _).bind fun _ _ => ?_
  refine (cycleless_compileParts style _).bind fun _ _ => ?_
  refine (cycleless_optionWords options _).bind fun _ _ => ?_
  exact (cycleless_compileParts style _).bind fun _ _ => Cycleless.ok _

/-- The same for exported flags, which are taken apart twice. -/
theorem cycleless_ofExports (knownFlags : List String) (knownLibs : List (Option String)) :
    Cycleless (ofExports style options exports knownFlags knownLibs) := by
  refine (cycleless_ofOptions style options).bind fun flags _ => ?_
  unfold withExports
  by_cases hempty : (exports.size == 0) = true
  · rw [if_pos hempty]
    exact Cycleless.ok _
  · rw [if_neg hempty]
    refine (cycleless_commandFlags options _).bind fun _ _ => ?_
    refine (cycleless_optionWords exports _).bind fun _ _ => ?_
    refine (cycleless_optionWords exports _).bind fun _ _ => ?_
    exact (cycleless_linkParts style _).bind fun _ _ => Cycleless.ok _

end BuildFlags

/-! ## Options -/

namespace Options

theorem cycleless_printed (shell : Shell) (command : List Char) : Cycleless (printed shell command) := by
  refine Cycleless.bind ?_ fun _ _ => Cycleless.ok _
  unfold Shell.run
  cases shell (String.ofList command) with
  | ok out => exact Cycleless.ok _
  | error reason => exact Cycleless.of_error (by simp)

/-- Carrying out a command in a value fails only for what the shell does. -/
theorem cycleless_expand (shell : Shell) (value : String) : Cycleless (expand shell value) := by
  refine Cycleless.bind ?_ fun value _ => ?_
  · unfold expandQuoted
    split
    · exact Cycleless.ok _
    · exact (cycleless_printed shell _).bind fun _ _ => Cycleless.ok _
  · unfold expandCall
    split
    · exact Cycleless.ok _
    · exact cycleless_printed shell _

/-- Storing rules goes through all of them with the failures of single rules. -/
theorem cycleless_storeRules (target : Target) (watched : List String) (options : Table String)
    (rules : List Rule) : Cycleless (storeRules target watched options rules).outcome := by
  induction rules generalizing options with
  | nil => exact Cycleless.ok _
  | cons rule rest ih =>
    rw [outcome_storeRules_cons, outcome_storeRule]
    refine Cycleless.bind ?_ fun out _ => (ih out.1).bind fun _ _ => Cycleless.ok _
    by_cases htakes : target.takes rule = true
    · rw [if_pos htakes]
      exact (cycleless_expand _ _).bind fun _ _ => Cycleless.ok _
    · rw [if_neg htakes]
      exact Cycleless.ok _

/-- References that lead back to where they start are a failure of another kind. -/
theorem cycleless_evaluate (options environment : Table String) (watched : List String)
    (known : Table String) : Cycleless (evaluate options environment watched known).outcome := by
  rcases Sources.evaluate_settles ⟨options, environment, known⟩ watched with
    ⟨results, hout, _⟩ | ⟨hfail, _⟩
  · rw [hout]
    exact Cycleless.ok _
  · rw [hfail]
    exact Cycleless.of_error (by simp)

end Options

/-! ## The steps of a configuration -/

namespace BuildConfig

open Options BuildFlags Logged

variable {plan : Plan} {graph : Digraph} {base options known : Table String} {u : SourceUnit}
  {units : Table SourceUnit} {config : BuildConfig} {names : List String}
  {optionsOf : SourceUnit → Logged (Table String)}

theorem cycleless_storeExported {name : String} :
    Cycleless (storeExported plan units name options).outcome := by
  unfold storeExported
  cases units.get? name with
  | none => exact Cycleless.of_error (by simp)
  | some u =>
    refine cycleless_bind (cycleless_storeRules _ _ _ _) fun _ _ => ?_
    exact cycleless_bind (cycleless_storeRules _ _ _ _) fun _ _ => Cycleless.ok _

/-- Loading what dependencies export looks at no graph: the order is given. -/
theorem cycleless_storeDependencies :
    Cycleless (storeDependencies plan config names units options).outcome := by
  induction names generalizing units options with
  | nil => exact Cycleless.ok _
  | cons name rest ih =>
    cases hpassed : isPassedOver config name with
    | true =>
      rw [storeDependencies_cons_of_passedOver hpassed]
      exact ih
    | false =>
      rw [storeDependencies_cons_of_not hpassed]
      exact cycleless_bind cycleless_storeExported fun _ _ => ih

theorem cycleless_appendTo {key text : String} : Cycleless (appendTo options key text) := by
  unfold appendTo
  cases options.get? key with
  | some value => exact Cycleless.ok _
  | none => exact Cycleless.of_error (by simp)

theorem cycleless_nameDebugFile {root : String} : Cycleless (nameDebugFile plan root u options) := by
  unfold nameDebugFile
  by_cases hstudio : (!isVisualStudio plan.uplid) = true
  · rw [if_pos hstudio]
    exact Cycleless.ok _
  · rw [if_neg hstudio]
    exact cycleless_appendTo.bind fun _ _ => cycleless_appendTo

/-- The only step that can meet a cycle: the search below the unit. -/
theorem cycleless_load (hacyc : graph.Acyclic) :
    Cycleless (load plan graph base u units config).outcome := by
  refine cycleless_bind ?_ fun _ _ => ?_
  · rw [outcome_lift]
    rcases Digraph.levelsFrom_settles graph (graph.children u.name) with
      ⟨_, _, _, _, hout⟩ | ⟨_, hcyc⟩
    · rw [hout]
      exact Cycleless.ok _
    · exact absurd hcyc (Digraph.not_cycleBelow_of_acyclic hacyc)
  refine cycleless_bind cycleless_storeDependencies fun _ _ => ?_
  refine cycleless_bind cycleless_nameDebugFile fun _ _ => ?_
  refine cycleless_bind (cycleless_evaluate _ _ _ _) fun _ _ => ?_
  exact cycleless_bind cycleless_storeExported fun _ _ => Cycleless.ok _

theorem cycleless_announceEvaluation {name : String} :
    Cycleless (announceEvaluation plan name).outcome := by
  rw [outcome_announceEvaluation]
  exact Cycleless.ok _

theorem cycleless_memberOptions (p : SourceUnit) :
    Cycleless (memberOptions plan options p).outcome := by
  refine cycleless_bind (cycleless_storeRules _ _ _ _) fun _ _ => ?_
  exact cycleless_bind (cycleless_storeRules _ _ _ _) fun _ _ => Cycleless.ok _

theorem cycleless_inner? {p : SourceUnit} : Cycleless (inner? plan options known p).outcome := by
  refine cycleless_bind cycleless_announceEvaluation fun _ _ => ?_
  refine cycleless_bind (cycleless_evaluate _ _ _ _) fun values _ => ?_
  by_cases hsupported : isUnsupported values = true
  · rw [if_pos hsupported]
    exact Cycleless.ok _
  · rw [if_neg hsupported]
    exact cycleless_bind (cycleless_ofOptions _ _) fun _ _ => Cycleless.ok _

/-- The packages of a group are configured one by one, each without looking for cycles. -/
theorem cycleless_addInners (hoptions : ∀ p, Cycleless (optionsOf p).outcome)
    {inners : Table InnerConfig} :
    Cycleless (addInners plan optionsOf known units names inners).outcome := by
  induction names generalizing inners with
  | nil => exact Cycleless.ok _
  | cons name rest ih =>
    rw [addInners]
    cases units.get? name with
    | none => exact Cycleless.of_error (by simp)
    | some p =>
      refine cycleless_bind (hoptions p) fun _ _ => ?_
      refine cycleless_bind cycleless_inner? fun result _ => ?_
      cases result with
      | none => exact ih
      | some k => exact cycleless_bind ih fun _ _ => Cycleless.ok _

/-- Entering a unit does what its packages do, and no search besides. -/
theorem cycleless_enter (hoptions : ∀ p, Cycleless (optionsOf p).outcome) {below : List String}
    {flags : BuildFlags} :
    Cycleless (enter plan u below optionsOf flags units config).outcome := by
  unfold enter
  by_cases hkind : (u.kind == .group) = true
  · rw [if_pos hkind]
    exact cycleless_bind (cycleless_addInners hoptions) fun _ _ => Cycleless.ok _
  · rw [if_neg hkind]
    exact Cycleless.ok _

theorem cycleless_releaseFlags {name : String} {depValues exportValues values : Table String} :
    Cycleless (releaseFlags plan name depValues exportValues values) :=
  (cycleless_ofExports _ _ _ _ _).bind fun _ _ => cycleless_ofExports _ _ _ _ _

/-- A turn fails with a cycle only where it looks for levels, so never if the graph has none. -/
theorem cycleless_addRelease (hacyc : graph.Acyclic) :
    Cycleless (addRelease plan graph base u units config).outcome := by
  refine cycleless_bind (cycleless_load hacyc) fun _ _ => ?_
  refine cycleless_bind (cycleless_evaluate _ _ _ _) fun values _ => ?_
  by_cases hsupported : isUnsupported values = true
  · rw [if_pos hsupported]
    exact Cycleless.ok _
  · rw [if_neg hsupported]
    refine cycleless_bind (cycleless_storeRules _ _ _ _) fun _ _ => ?_
    refine cycleless_bind cycleless_announceEvaluation fun _ _ => ?_
    refine cycleless_bind (cycleless_evaluate _ _ _ _) fun _ _ => ?_
    refine cycleless_bind cycleless_releaseFlags fun _ _ => ?_
    exact cycleless_bind (cycleless_enter cycleless_memberOptions) fun _ _ => Cycleless.ok _

theorem cycleless_addReleases (hacyc : graph.Acyclic) {us : List SourceUnit} :
    Cycleless (addReleases plan graph base us units config).outcome := by
  induction us generalizing units config with
  | nil => exact Cycleless.ok _
  | cons u rest ih => exact cycleless_bind (cycleless_addRelease hacyc) fun _ _ => ih

/-- **Without cyclic dependencies no cycle is reported.** -/
theorem cycleless_make {c : Context} {defaults : List Rule} (hacyc : c.releaseGraph.Acyclic) :
    Cycleless (make plan c defaults).outcome := by
  refine cycleless_bind ?_ fun _ _ => ?_
  · refine cycleless_bind (cycleless_storeRules _ _ _ _) fun _ _ => ?_
    refine cycleless_bind (cycleless_evaluate _ _ _ _) fun _ _ => ?_
    exact cycleless_bind (cycleless_ofExports _ _ _ _ _) fun _ _ => Cycleless.ok _
  · exact cycleless_bind (cycleless_addReleases hacyc) fun _ _ => Cycleless.ok _

end BuildConfig

end BuildMeta
