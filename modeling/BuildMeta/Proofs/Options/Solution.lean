import BuildMeta.Proofs.Options.Evaluation
import Mathlib

/-!
# `Proofs.Options.Solution` — evaluation solves the reference equations

The value of an option is its text with each reference replaced by a value: one equation for each
option, with the values on both sides.  `Sources.IsSolution` says that a table satisfies all of them
and holds nothing beside what they need.

* `Memo.isSolution` — a table that the run's invariant allows and that holds all options is a solution;
* `IsSolution.get?_eq` — it is then the only one;
* `evaluateKeys_settles` — the run over the keys ends with such a table, or is endless because of a
  cycle;
* `evaluate_solves` — the whole statement, with its independence of the order of the options.
-/

namespace BuildMeta.Options

open Relation

namespace Sources

variable (S : Sources)

/-! ## The reference equations -/

/-- What stands for a reference, given the values of the options. -/
def valueIn (results : Table String) (name : String) : String :=
  match S.preset.get? name with
  | some value => value
  | none =>
    if name ∈ S.options.keys then results.getD name "" else S.environment.getD name ""

/-- A table of values that satisfies the reference equations. -/
structure IsSolution (results : Table String) : Prop where
  /-- Preset values are kept. -/
  preset : ∀ key value, S.preset.get? key = some value → results.get? key = some value
  /-- The value of any other option is its text with the references replaced. -/
  option : ∀ key text ps, S.Pending key text → Reads text.toList ps →
    results.get? key = some (String.ofList (fill (S.valueIn results) ps))
  /-- Any other value is that of an environment variable. -/
  environment : ∀ key value, key ∉ S.preset.keys → key ∉ S.options.keys →
    results.get? key = some value → S.environment.get? key = some value
  /-- The keys are those of the preset table, the options, and the environment names reached. -/
  keys : ∀ key, key ∈ results.keys ↔
    key ∈ S.preset.keys ∨ key ∈ S.options.keys ∨ S.Reached key

variable {S}

/-- In a table that holds every option with its value, a reference stands for the value of its name. -/
theorem valueIn_eq_of_sound {results : Table String} (hm : S.Memo results)
    (hall : ∀ key ∈ S.options.keys, key ∈ results.keys) {name value : String}
    (hv : S.Value name value) : S.valueIn results name = value := by
  unfold valueIn
  cases hv with
  | preset hp => rw [hp]
  | option f hpend hrefs =>
    have hkey : name ∈ S.options.keys := Table.mem_keys_of_get? hpend.2
    obtain ⟨w, hw⟩ := Table.mem_keys_iff.mp (hall name hkey)
    have heq := (hm.sound hw).unique (.option f hpend hrefs)
    simp only [hpend.1, if_pos hkey, Table.getD, hw, Option.getD_some, heq]
  | environment hp ho he =>
    simp only [hp, if_neg (Table.get?_eq_none_iff.mp ho), Table.getD, he, Option.getD_some]
  | absent hp ho he =>
    simp only [hp, if_neg (Table.get?_eq_none_iff.mp ho), Table.getD, he, Option.getD_none]

/-- **A table that the invariant allows and that holds all options is a solution.** -/
theorem Memo.isSolution {results : Table String} (hm : S.Memo results)
    (hall : ∀ key ∈ S.options.keys, key ∈ results.keys) : S.IsSolution results where
  preset := fun _ _ h => hm.preset h
  option := by
    intro key text ps hpend hreads
    obtain rfl := reads_iff.mp hreads
    obtain ⟨value, hget⟩ := Table.mem_keys_iff.mp (hall key (Table.mem_keys_of_get? hpend.2))
    rw [hget]
    cases hm.sound hget with
    | preset hp => exact absurd (hp.symm.trans hpend.1) (by simp)
    | option f hpend' hrefs =>
      obtain rfl : text = _ := Option.some.inj (hpend.2.symm.trans hpend'.2)
      rw [fill_congr fun m hmem => (valueIn_eq_of_sound hm hall (hrefs m hmem)).symm]
    | environment _ ho _ => exact absurd (hpend.2.symm.trans ho) (by simp)
    | absent _ ho _ => exact absurd (hpend.2.symm.trans ho) (by simp)
  environment := by
    intro key value hnp hno hget
    have hp := Table.get?_eq_none_iff.mpr hnp
    have ho := Table.get?_eq_none_iff.mpr hno
    rcases hm.reached (Table.mem_keys_of_get? hget) with hin | hin | hreach
    · exact absurd hin hnp
    · exact absurd hin hno
    · obtain ⟨w, hw⟩ := Table.mem_keys_iff.mp hreach.1
      rw [hw, (hm.sound hget).unique (.environment hp ho hw)]
  keys := by
    intro key
    refine ⟨fun h => hm.reached h, ?_⟩
    rintro (hp | ho | ⟨henv, other, text, hpend, hment⟩)
    · exact hm.preset.mem_keys hp
    · exact hall key ho
    · exact hm.closed hpend (hall other (Table.mem_keys_of_get? hpend.2)) (mentions_iff.mp hment) henv

/-! ## Solutions agree -/

/-- In every solution a reference stands for the value of its name: by induction on the unfolding that
    gives the value. -/
theorem IsSolution.valueIn_eq {results : Table String} (h : S.IsSolution results)
    {name value : String} (hv : S.Value name value) : S.valueIn results name = value := by
  induction hv with
  | preset hp => simp only [valueIn, hp]
  | @option name text f hpend _ ih =>
    have hget := h.option name text (pieces text) hpend (reads_pieces text)
    simp only [valueIn, hpend.1, if_pos (Table.mem_keys_of_get? hpend.2), Table.getD, hget,
      Option.getD_some]
    rw [fill_congr fun m hmem => ih m hmem]
  | environment hp ho he =>
    simp only [valueIn, hp, if_neg (Table.get?_eq_none_iff.mp ho), Table.getD, he, Option.getD_some]
  | absent hp ho he =>
    simp only [valueIn, hp, if_neg (Table.get?_eq_none_iff.mp ho), Table.getD, he, Option.getD_none]

/-- **Where every option has a value, any two solutions agree.** -/
theorem IsSolution.get?_eq {r r' : Table String} (h : S.IsSolution r) (h' : S.IsSolution r')
    (hvalues : ∀ key ∈ S.options.keys, ∃ value, S.Value key value) (key : String) :
    r.get? key = r'.get? key := by
  by_cases hk : key ∈ r.keys
  · have hk' : key ∈ r'.keys := (h'.keys key).mpr ((h.keys key).mp hk)
    obtain ⟨v, hv⟩ := Table.mem_keys_iff.mp hk
    obtain ⟨v', hv'⟩ := Table.mem_keys_iff.mp hk'
    cases hp : S.preset.get? key with
    | some w => rw [h.preset key w hp, h'.preset key w hp]
    | none =>
      cases ho : S.options.get? key with
      | some text =>
        have hopt : key ∈ S.options.keys := Table.mem_keys_of_get? ho
        obtain ⟨w, hw⟩ := hvalues key hopt
        have hsame := (h.valueIn_eq hw).trans (h'.valueIn_eq hw).symm
        simp only [valueIn, hp, if_pos hopt, Table.getD, hv, hv', Option.getD_some] at hsame
        rw [hv, hv', hsame]
      | none =>
        have hnp := Table.get?_eq_none_iff.mp hp
        have hno := Table.get?_eq_none_iff.mp ho
        have hsame := (h.environment key v hnp hno hv).symm.trans (h'.environment key v' hnp hno hv')
        rw [hv, hv', hsame]
  · have hk' : key ∉ r'.keys := fun hin => hk ((h.keys key).mpr ((h'.keys key).mp hin))
    rw [Table.get?_eq_none_iff.mpr hk, Table.get?_eq_none_iff.mpr hk']

/-! ## The run over the keys -/

/-- An option that is looked up first has no open evaluation above it. -/
theorem entered_key {key : String} (hkey : key ∈ S.options.keys) :
    S.Entered S.options.keys [.ref key] where
  above := fun _ _ _ _ _ hk hnot => absurd hk hnot
  mentioned := by
    intro name hmem
    cases List.mem_singleton.mp hmem
    exact Or.inl hkey

/-- What one key does to the run, in terms of outcomes. -/
theorem outcome_evaluateKeys_cons (options environment : Table String) (watched : List String)
    (key : String) (rest : List String) (results : Table String) :
    (evaluateKeys options environment watched (key :: rest) results).outcome
      = (evaluatePieces options environment options.keys [.ref key] results).outcome >>=
          fun found => (evaluateKeys options environment watched rest
            (found.2.set key (String.ofList found.1))).outcome := by
  rw [evaluateKeys, Logged.outcome_bind]
  cases (evaluatePieces options environment options.keys [.ref key] results).outcome with
  | error e => rfl
  | ok found =>
    simp only [Failure.ok_bind]
    by_cases hw : watched.contains key = true
    · rw [if_pos hw, Logged.outcome_bind, Logged.outcome_tell, Failure.ok_bind]
    · rw [if_neg hw]

/-- **The run over some of the keys** ends with all of them held, or is endless because of a cycle. -/
theorem evaluateKeys_settles (watched keys : List String) (hkeys : ∀ key ∈ keys, key ∈ S.options.keys)
    (results : Table String) (hm : S.Memo results) :
    (∃ results', (evaluateKeys S.options S.environment watched keys results).outcome = .ok results' ∧
      S.Memo results' ∧ results.Extends results' ∧ ∀ key ∈ keys, key ∈ results'.keys) ∨
    ((evaluateKeys S.options S.environment watched keys results).outcome = .error .endless ∧
      ¬ S.Acyclic) := by
  induction keys generalizing results with
  | nil =>
    refine Or.inl ⟨results, ?_, hm, Table.Extends.refl results, ?_⟩
    · rw [evaluateKeys, Logged.outcome_pure]
    · intro key hk
      exact absurd hk List.not_mem_nil
  | cons key rest ih =>
    have hkey := hkeys key List.mem_cons_self
    rcases settles_pieces S.options.keys [.ref key] results hm (entered_key hkey) with
      ⟨chars, results₁, hout, hm₁, hext, ⟨f, hf, rfl⟩, hheld⟩ | ⟨hout, hcyc⟩
    · have hin : key ∈ results₁.keys := hheld key List.mem_cons_self (Or.inl hkey)
      -- The option is held by now, so writing its value once more changes nothing.
      have hset : results₁.set key (String.ofList (fill f [.ref key])) = results₁ := by
        obtain ⟨value, hget⟩ := Table.mem_keys_iff.mp hin
        have hval : f key = value := (hf key List.mem_cons_self).unique (hm₁.sound hget)
        rw [fill, fill, List.append_nil, String.ofList_toList, hval, Table.set_eq_self hget]
      rw [outcome_evaluateKeys_cons, hout, Failure.ok_bind, hset]
      rcases ih (fun k hk => hkeys k (List.mem_cons_of_mem _ hk)) results₁ hm₁ with
        ⟨results₂, hout₂, hm₂, hext₂, hall⟩ | hfail
      · refine Or.inl ⟨results₂, hout₂, hm₂, hext.trans hext₂, ?_⟩
        intro k hk
        rcases List.mem_cons.mp hk with rfl | hk'
        · exact hext₂.mem_keys hin
        · exact hall k hk'
      · exact Or.inr hfail
    · refine Or.inr ⟨?_, hcyc⟩
      rw [outcome_evaluateKeys_cons, hout, Failure.error_bind]

/-- A run over keys that are all held changes nothing. -/
theorem evaluateKeys_held (options environment : Table String) (watched keys : List String)
    (results : Table String) (hkeys : ∀ key ∈ keys, key ∈ results.keys) :
    (evaluateKeys options environment watched keys results).outcome = .ok results := by
  induction keys with
  | nil => rw [evaluateKeys, Logged.outcome_pure]
  | cons key rest ih =>
    obtain ⟨value, hget⟩ := Table.mem_keys_iff.mp (hkeys key List.mem_cons_self)
    rw [outcome_evaluateKeys_cons, outcome_ref_held hget, evaluatePieces, Logged.outcome_pure]
    show (evaluateKeys options environment watched rest
      (results.set key (String.ofList (value.toList ++ [])))).outcome = _
    rw [List.append_nil, String.ofList_toList, Table.set_eq_self hget]
    exact ih fun k hk => hkeys k (List.mem_cons_of_mem _ hk)

/-! ## Whole runs -/

/-- A run over all options ends with all of them held, or is endless because of a cycle. -/
theorem evaluate_settles (S : Sources) (watched : List String) :
    (∃ results, (evaluate S.options S.environment watched S.preset).outcome = .ok results ∧
      S.Memo results ∧ ∀ key ∈ S.options.keys, key ∈ results.keys) ∨
    ((evaluate S.options S.environment watched S.preset).outcome = .error .endless ∧ ¬ S.Acyclic) := by
  unfold evaluate
  rcases evaluateKeys_settles watched S.options.keys (fun _ hk => hk) S.preset memo_preset with
    ⟨results, hout, hm, _, hall⟩ | hfail
  · exact Or.inl ⟨results, hout, hm, hall⟩
  · exact Or.inr hfail

/-- Where every option has a value there is no cycle of references. -/
theorem acyclic_of_values (h : ∀ key ∈ S.options.keys, ∃ value, S.Value key value) : S.Acyclic := by
  intro key hcyc
  obtain ⟨_, ⟨text, hpend, _⟩, _⟩ := TransGen.head'_iff.mp hcyc
  obtain ⟨value, hv⟩ := h key (Table.mem_keys_of_get? hpend.2)
  exact hv.not_cyclic hcyc

theorem Memo.values {results : Table String} (hm : S.Memo results)
    (hall : ∀ key ∈ S.options.keys, key ∈ results.keys) :
    ∀ key ∈ S.options.keys, ∃ value, S.Value key value := by
  intro key hkey
  obtain ⟨value, hget⟩ := Table.mem_keys_iff.mp (hall key hkey)
  exact ⟨value, hm.sound hget⟩

/-! ## The order of the options -/

section Order

variable {options' : Table String}

theorem mem_keys_congr {t t' : Table String} (h : ∀ key, t'.get? key = t.get? key) (key : String) :
    key ∈ t'.keys ↔ key ∈ t.keys := by
  rw [Table.mem_keys_iff, Table.mem_keys_iff, h]

variable (h : ∀ key, options'.get? key = S.options.get? key)
include h

theorem pending_congr : Pending { S with options := options' } = S.Pending := by
  funext key text
  simp only [Pending, h]

theorem acyclic_congr : Acyclic { S with options := options' } ↔ S.Acyclic := by
  unfold Acyclic Refers
  rw [pending_congr h]

/-- Being a solution does not depend on the order of the options. -/
theorem isSolution_of_reordered {results : Table String}
    (hs : IsSolution { S with options := options' } results) : S.IsSolution results := by
  have hkeys := mem_keys_congr h
  have hvalue : valueIn { S with options := options' } results = S.valueIn results := by
    funext name
    simp only [valueIn, hkeys]
  refine ⟨hs.preset, ?_, ?_, ?_⟩
  · intro key text ps hpend hreads
    rw [← hvalue]
    exact hs.option key text ps (pending_congr h ▸ hpend) hreads
  · intro key value hnp hno
    exact hs.environment key value hnp ((hkeys key).not.mpr hno)
  · intro key
    rw [hs.keys key]
    unfold Reached
    rw [pending_congr h]
    simp only [hkeys]

end Order

end Sources

/-- Two outcomes are tables with the same values, or the same failure. -/
def SameValues : Except Failure (Table String) → Except Failure (Table String) → Prop
  | .ok results, .ok results' => ∀ key, results.get? key = results'.get? key
  | .error e, .error e' => e = e'
  | _, _ => False

open Sources in
/-- **Evaluation computes the only solution of the reference equations.**  Without a cycle among the
    references it ends with a solution, every solution has the same values, and a second evaluation
    changes nothing.  With a cycle it is endless.  The order of the options does not matter. -/
theorem evaluate_solves (S : Sources) (watched : List String) :
    (S.Acyclic → ∃ results,
      (evaluate S.options S.environment watched S.preset).outcome = .ok results ∧
      S.IsSolution results ∧
      (∀ other, S.IsSolution other → ∀ key, other.get? key = results.get? key) ∧
      ∀ again, (evaluate S.options S.environment again results).outcome = .ok results) ∧
    (¬ S.Acyclic →
      (evaluate S.options S.environment watched S.preset).outcome = .error .endless) ∧
    ∀ options', (∀ key, options'.get? key = S.options.get? key) →
      SameValues (evaluate options' S.environment watched S.preset).outcome
        (evaluate S.options S.environment watched S.preset).outcome := by
  refine ⟨?_, ?_, ?_⟩
  · intro hacyc
    rcases evaluate_settles S watched with ⟨results, hout, hm, hall⟩ | ⟨_, hcyc⟩
    · have hsol := hm.isSolution hall
      refine ⟨results, hout, hsol, ?_, ?_⟩
      · intro other hother key
        exact hother.get?_eq hsol (hm.values hall) key
      · intro again
        exact evaluateKeys_held S.options S.environment again S.options.keys results hall
    · exact absurd hacyc hcyc
  · intro hcyc
    rcases evaluate_settles S watched with ⟨results, _, hm, hall⟩ | ⟨hout, _⟩
    · exact absurd (acyclic_of_values (hm.values hall)) hcyc
    · exact hout
  · intro options' hsame
    have hacyc := acyclic_congr (S := S) hsame
    rcases evaluate_settles S watched with ⟨results, hout, hm, hall⟩ | ⟨hout, hcyc⟩ <;>
      rcases evaluate_settles { S with options := options' } watched with
        ⟨results', hout', hm', hall'⟩ | ⟨hout', hcyc'⟩
    · rw [hout, hout']
      have hsol' := isSolution_of_reordered hsame (hm'.isSolution hall')
      exact hsol'.get?_eq (hm.isSolution hall) (hm.values hall)
    · exact absurd (hacyc.mpr (acyclic_of_values (hm.values hall))) hcyc'
    · exact absurd (hacyc.mp (acyclic_of_values (hm'.values hall'))) hcyc
    · rw [hout, hout']
      rfl

/-- Both cases occur: a chain of references that ends in the environment, and two options that refer
    to each other. -/
theorem evaluate_solves_chain_and_loop :
    let chain : Sources :=
      ⟨.ofList [("A", "x$(B)"), ("B", "$(HOME)y$(C)")], .ofList [("HOME", "/h")], ∅⟩
    let loop : Sources := ⟨.ofList [("A", "x$(B)"), ("B", "$(A)")], ∅, ∅⟩
    (chain.Acyclic ∧ chain.IsSolution (.ofList [("HOME", "/h"), ("B", "/hy"), ("A", "x/hy")])) ∧
      ¬ loop.Acyclic := by
  intro chain loop
  have hchain : (evaluate chain.options chain.environment [] chain.preset).outcome
      = .ok (.ofList [("HOME", "/h"), ("B", "/hy"), ("A", "x/hy")]) := by cbv
  have hloop : (evaluate loop.options loop.environment [] loop.preset).outcome
      = .error .endless := by cbv
  have hacyc : chain.Acyclic := by
    apply Classical.byContradiction
    intro hcyc
    have hout := (evaluate_solves chain []).2.1 hcyc
    rw [hchain] at hout
    cases hout
  refine ⟨⟨hacyc, ?_⟩, ?_⟩
  · obtain ⟨results, hout, hsol, _⟩ := (evaluate_solves chain []).1 hacyc
    rw [hchain] at hout
    cases hout
    exact hsol
  · intro hacyc'
    obtain ⟨results, hout, _⟩ := (evaluate_solves loop []).1 hacyc'
    rw [hloop] at hout
    cases hout

end BuildMeta.Options
