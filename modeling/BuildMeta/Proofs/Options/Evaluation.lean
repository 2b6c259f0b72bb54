import BuildMeta.Proofs.Cycle
import BuildMeta.Proofs.Options.References

/-!
# `Proofs.Options.Evaluation` — evaluation finds the values of names

The evaluator keeps the values found so far in the table that it started from, and writes the
environment variables that it meets into the same table.  To say what it computes without speaking of
that table, `Sources.Value` gives the value of a name as an evaluation relation: its derivations are
the finite unfoldings of references, so a name has a value only if no endless unfolding starts from it
(`Value.not_cyclic`), and it has at most one (`Value.unique`).

A run then needs one invariant, `Sources.Memo`: the table extends the preset one, holds only values
of the relation, and holds what the settled options mention.  One step lemma for each way in which a
reference is looked up (`outcome_ref_held` and its siblings) gives `settles_pieces`: the evaluation of
pieces ends with their filled text, or it is endless because of a cycle.  What follows for a whole run
is in `Proofs.Options.Solution`.
-/

namespace BuildMeta.Options

open Relation

/-- Where values come from: the texts of the options, the environment, and the values that are set
    before evaluation starts. -/
structure Sources where
  options : Table String
  environment : Table String
  preset : Table String

namespace Sources

/-! ## References between options -/

/-- A name is mentioned in a text. -/
def Mentions (text name : String) : Prop := ∃ ps, Reads text.toList ps ∧ .ref name ∈ ps

theorem mentions_iff {text name : String} : Mentions text name ↔ .ref name ∈ pieces text := by
  constructor
  · rintro ⟨ps, hr, hm⟩
    exact reads_iff.mp hr ▸ hm
  · intro h
    exact ⟨pieces text, reads_pieces text, h⟩

variable (S : Sources)

/-- An option whose value has to be found, with its text. -/
def Pending (key text : String) : Prop :=
  S.preset.get? key = none ∧ S.options.get? key = some text

/-- The reference graph: an edge leads from one pending option to another that it mentions. -/
def Refers (key name : String) : Prop :=
  ∃ text, S.Pending key text ∧ (∃ other, S.Pending name other) ∧ Mentions text name

/-- No option refers to itself, directly or through others. -/
def Acyclic : Prop := ∀ key, ¬ TransGen S.Refers key key

/-- A name of the environment that some pending option mentions. -/
def Reached (name : String) : Prop :=
  name ∈ S.environment.keys ∧ ∃ key text, S.Pending key text ∧ Mentions text name

/-! ## Values as an evaluation relation -/

/-- The value of a name, by unfolding references. -/
inductive Value : String → String → Prop
  | preset {name value : String} (h : S.preset.get? name = some value) : Value name value
  | option {name text : String} (f : String → String) (h : S.Pending name text)
      (hrefs : ∀ m, .ref m ∈ pieces text → Value m (f m)) :
      Value name (String.ofList (fill f (pieces text)))
  | environment {name value : String} (hp : S.preset.get? name = none)
      (ho : S.options.get? name = none) (h : S.environment.get? name = some value) :
      Value name value
  | absent {name : String} (hp : S.preset.get? name = none) (ho : S.options.get? name = none)
      (h : S.environment.get? name = none) : Value name ""

variable {S}

/-- **A name has at most one value.** -/
theorem Value.unique {name value value' : String} (h : S.Value name value)
    (h' : S.Value name value') : value = value' := by
  induction h generalizing value' with
  | preset hp =>
    cases h' with
    | preset hp' => exact Option.some.inj (hp.symm.trans hp')
    | option f h _ => exact absurd (hp.symm.trans h.1) (by simp)
    | environment hp' _ _ => exact absurd (hp.symm.trans hp') (by simp)
    | absent hp' _ _ => exact absurd (hp.symm.trans hp') (by simp)
  | option f hpend _ ih =>
    cases h' with
    | preset hp' => exact absurd (hp'.symm.trans hpend.1) (by simp)
    | option f' hpend' hrefs' =>
      obtain rfl : _ = _ := Option.some.inj (hpend.2.symm.trans hpend'.2)
      rw [fill_congr fun m hm => ih m hm (hrefs' m hm)]
    | environment _ ho _ => exact absurd (hpend.2.symm.trans ho) (by simp)
    | absent _ ho _ => exact absurd (hpend.2.symm.trans ho) (by simp)
  | environment hp ho he =>
    cases h' with
    | preset hp' => exact absurd (hp'.symm.trans hp) (by simp)
    | option f h _ => exact absurd (h.2.symm.trans ho) (by simp)
    | environment _ _ he' => exact Option.some.inj (he.symm.trans he')
    | absent _ _ he' => exact absurd (he.symm.trans he') (by simp)
  | absent hp ho he =>
    cases h' with
    | preset hp' => exact absurd (hp'.symm.trans hp) (by simp)
    | option f h _ => exact absurd (h.2.symm.trans ho) (by simp)
    | environment _ _ he' => exact absurd (he'.symm.trans he) (by simp)
    | absent _ _ _ => rfl

/-- A value is found by finitely many unfoldings, so every chain of references from its name ends. -/
theorem Value.acc {name value : String} (h : S.Value name value) :
    Acc (fun a b => S.Refers b a) name := by
  induction h with
  | preset hp => exact ⟨_, fun m ⟨_, hpend, _⟩ => absurd (hp.symm.trans hpend.1) (by simp)⟩
  | option f hpend _ ih =>
    refine ⟨_, fun m ⟨text, hpend', _, hm⟩ => ?_⟩
    obtain rfl : _ = _ := Option.some.inj (hpend.2.symm.trans hpend'.2)
    exact ih m (mentions_iff.mp hm)
  | environment _ ho _ => exact ⟨_, fun m ⟨_, hpend, _⟩ => absurd (hpend.2.symm.trans ho) (by simp)⟩
  | absent _ ho _ => exact ⟨_, fun m ⟨_, hpend, _⟩ => absurd (hpend.2.symm.trans ho) (by simp)⟩

/-- No name that has a value lies on a cycle of references. -/
theorem Value.not_cyclic {name value : String} (h : S.Value name value) :
    ¬ TransGen S.Refers name name := not_cycle_of_acc h.acc

variable (S) in
/-- A text results from pieces by putting the values of the names in place of the references. -/
def Fills (ps : List Piece) (text : List Char) : Prop :=
  ∃ f : String → String, (∀ m, .ref m ∈ ps → S.Value m (f m)) ∧ text = fill f ps

theorem Fills.nil : S.Fills [] [] :=
  ⟨fun _ => "", fun _ hm => absurd hm List.not_mem_nil, rfl⟩

theorem Fills.char {ps : List Piece} {text : List Char} (c : Char) (h : S.Fills ps text) :
    S.Fills (.char c :: ps) (c :: text) := by
  obtain ⟨f, hf, rfl⟩ := h
  refine ⟨f, fun m hm => hf m ?_, rfl⟩
  rcases List.mem_cons.mp hm with he | ht
  · cases he
  · exact ht

/-- A reference to a name with a value may be put before what is filled already. -/
theorem Fills.ref {ps : List Piece} {text : List Char} {name value : String}
    (hv : S.Value name value) (h : S.Fills ps text) :
    S.Fills (.ref name :: ps) (value.toList ++ text) := by
  obtain ⟨f, hf, rfl⟩ := h
  refine ⟨Function.update f name value, fun m hm => ?_, ?_⟩
  · by_cases hmn : m = name
    · subst hmn
      rw [Function.update_self]
      exact hv
    · rw [Function.update_of_ne hmn]
      rcases List.mem_cons.mp hm with he | ht
      · exact absurd (Piece.ref.inj he) hmn
      · exact hf m ht
  · rw [fill, Function.update_self]
    refine congrArg (value.toList ++ ·) (fill_congr fun m hm => ?_)
    by_cases hmn : m = name
    · subst hmn
      rw [Function.update_self]
      exact (hf m hm).unique hv
    · rw [Function.update_of_ne hmn]

/-! ## The table of values during a run -/

variable (S) in
/-- The invariant of a run: what the table of values holds at any time. -/
structure Memo (results : Table String) : Prop where
  /-- Preset values are still there. -/
  preset : S.preset.Extends results
  /-- Every value is the value of its name. -/
  sound : ∀ ⦃key value⦄, results.get? key = some value → S.Value key value
  /-- No other names are held than those that a solution has. -/
  reached : ∀ ⦃key⦄, key ∈ results.keys → key ∈ S.preset.keys ∨ key ∈ S.options.keys ∨ S.Reached key
  /-- With a pending option, the environment names that it mentions are held. -/
  closed : ∀ ⦃key text name⦄, S.Pending key text → key ∈ results.keys → .ref name ∈ pieces text →
    name ∈ S.environment.keys → name ∈ results.keys

/-- The run starts from the preset table. -/
theorem memo_preset : S.Memo S.preset where
  preset := Table.Extends.refl S.preset
  sound := fun _ _ h => .preset h
  reached := fun _ h => Or.inl h
  closed := fun _ _ _ hpend hk => absurd hk (Table.get?_eq_none_iff.mp hpend.1)

/-- A name that gets its value keeps all values, its own included if it is held already. -/
theorem Memo.extends_set {results : Table String} (hm : S.Memo results) {key value : String}
    (hv : S.Value key value) : results.Extends (results.set key value) :=
  Table.extends_set fun _ hget => (hm.sound hget).unique hv

/-- Any option or name reached may be added with its value. -/
theorem Memo.set {results : Table String} (hm : S.Memo results) {key value : String}
    (hv : S.Value key value) (hreach : key ∈ S.options.keys ∨ S.Reached key)
    (hclosed : ∀ ⦃text name⦄, S.Pending key text → .ref name ∈ pieces text →
      name ∈ S.environment.keys → name ∈ results.keys) :
    S.Memo (results.set key value) where
  preset := hm.preset.trans (hm.extends_set hv)
  sound := by
    intro other v hget
    by_cases hne : other = key
    · subst hne
      rw [Table.get?_set_self, Option.some.injEq] at hget
      exact hget ▸ hv
    · rw [Table.get?_set_of_ne _ _ hne] at hget
      exact hm.sound hget
  reached := by
    intro other hk
    rcases Table.mem_keys_set.mp hk with rfl | hk'
    · exact Or.inr hreach
    · exact hm.reached hk'
  closed := by
    intro other text name hpend hk href henv
    refine Table.mem_keys_set.mpr (Or.inr ?_)
    rcases Table.mem_keys_set.mp hk with rfl | hk'
    · exact hclosed hpend href henv
    · exact hm.closed hpend hk' href henv

/-- A name that is not held is not preset. -/
theorem Memo.not_preset {results : Table String} (hm : S.Memo results) {key : String}
    (hnew : results.get? key = none) : S.preset.get? key = none := by
  cases hp : S.preset.get? key with
  | none => rfl
  | some value => exact absurd (hm.preset hp) (by rw [hnew]; simp)

theorem Memo.pending {results : Table String} (hm : S.Memo results) {key text : String}
    (hnew : results.get? key = none) (ho : S.options.get? key = some text) :
    S.Pending key text := ⟨hm.not_preset hnew, ho⟩

/-! ## One reference after the other -/

variable (S) in
/-- What holds of pieces when their evaluation starts: `free` lacks only options from which references
    lead to each of their names, and each of their names is an option or mentioned by one. -/
structure Entered (free : List String) (ps : List Piece) : Prop where
  above : ∀ ⦃name text key⦄, .ref name ∈ ps → S.Pending name text → key ∈ S.options.keys →
    key ∉ free → TransGen S.Refers key name
  mentioned : ∀ ⦃name⦄, .ref name ∈ ps →
    name ∈ S.options.keys ∨ ∃ key text, S.Pending key text ∧ Mentions text name

theorem Entered.tail {free : List String} {p : Piece} {ps : List Piece}
    (h : S.Entered free (p :: ps)) : S.Entered free ps where
  above := fun _ _ _ hm => h.above (List.mem_cons_of_mem _ hm)
  mentioned := fun _ hm => h.mentioned (List.mem_cons_of_mem _ hm)

/-- Going down into the text of an option takes the option out of `free`: from it, and from all that
    led to it, a reference leads to each name of the text. -/
theorem Entered.down {free : List String} {name text : String} {ps : List Piece}
    (h : S.Entered free (.ref name :: ps)) (hpend : S.Pending name text) :
    S.Entered (free.erase name) (pieces text) where
  above := by
    intro other text' key hm hpend' hkey hfree
    have hstep : S.Refers name other := ⟨text, hpend, ⟨text', hpend'⟩, mentions_iff.mpr hm⟩
    by_cases hk : key = name
    · subst hk
      exact TransGen.single hstep
    · have hfree' : key ∉ free := fun hin => hfree ((List.mem_erase_of_ne hk).mpr hin)
      exact (h.above List.mem_cons_self hpend hkey hfree').tail hstep
  mentioned := fun other hm => Or.inr ⟨name, text, hpend, mentions_iff.mpr hm⟩

variable (S) in
/-- The evaluation of pieces comes to its end with their filled text, or it is endless because of a
    cycle. -/
def Settles (free : List String) (ps : List Piece) (results : Table String) : Prop :=
  (∃ text results',
      (evaluatePieces S.options S.environment free ps results).outcome = .ok (text, results') ∧
      S.Memo results' ∧ results.Extends results' ∧ S.Fills ps text ∧
      ∀ name, .ref name ∈ ps → name ∈ S.options.keys ∨ name ∈ S.environment.keys →
        name ∈ results'.keys) ∨
    ((evaluatePieces S.options S.environment free ps results).outcome = .error .endless ∧
      ¬ S.Acyclic)

section Steps

variable {options environment : Table String} {free : List String} {name value text : String}
variable {rest : List Piece} {results : Table String}

/-- The outcome of the pieces after a reference, with the value of the reference put before it. -/
def putBefore (value : String) (outcome : Except Failure (List Char × Table String)) :
    Except Failure (List Char × Table String) :=
  outcome.map fun (text, results) => (value.toList ++ text, results)

theorem outcome_char (c : Char) :
    (evaluatePieces options environment free (.char c :: rest) results).outcome
      = (evaluatePieces options environment free rest results).outcome.map
          fun (text, results) => (c :: text, results) := by
  rw [evaluatePieces, Logged.outcome_bind]
  cases (evaluatePieces options environment free rest results).outcome <;> rfl

theorem outcome_ref_held (h : results.get? name = some value) :
    (evaluatePieces options environment free (.ref name :: rest) results).outcome
      = putBefore value (evaluatePieces options environment free rest results).outcome := by
  rw [evaluatePieces]
  simp only [h, Logged.outcome_bind, Logged.outcome_pure, Failure.ok_bind]
  cases (evaluatePieces options environment free rest results).outcome <;> rfl

/-- A reference to an option whose value is not known yet evaluates its text first, with one option
    fewer to open, and remembers the value. -/
theorem outcome_ref_option (h : results.get? name = none) (ho : options.get? name = some text)
    (hfree : name ∈ free) :
    (evaluatePieces options environment free (.ref name :: rest) results).outcome
      = (evaluatePieces options environment (free.erase name) (pieces text) results).outcome >>=
          fun (chars, results) => putBefore (String.ofList chars)
            (evaluatePieces options environment free rest
              (results.set name (String.ofList chars))).outcome := by
  rw [evaluatePieces]
  simp only [h, ho, dif_pos hfree, Logged.outcome_bind, Logged.outcome_pure]
  cases (evaluatePieces options environment (free.erase name) (pieces text) results).outcome with
  | error e => rfl
  | ok found =>
    simp only [Failure.ok_bind]
    cases (evaluatePieces options environment free rest
      (found.2.set name (String.ofList found.1))).outcome <;> rfl

theorem outcome_ref_endless (h : results.get? name = none) (ho : options.get? name = some text)
    (hfree : name ∉ free) :
    (evaluatePieces options environment free (.ref name :: rest) results).outcome
      = .error .endless := by
  rw [evaluatePieces]
  simp only [h, ho, dif_neg hfree, Logged.outcome_bind, Logged.outcome_fail]
  rfl

/-- A reference to a variable of the environment takes its value as it is. -/
theorem outcome_ref_environment (h : results.get? name = none) (ho : options.get? name = none)
    (he : environment.get? name = some value) :
    (evaluatePieces options environment free (.ref name :: rest) results).outcome
      = putBefore value
          (evaluatePieces options environment free rest (results.set name value)).outcome := by
  rw [evaluatePieces]
  simp only [h, ho, he, Logged.outcome_bind, Logged.outcome_pure, Logged.outcome_tell,
    Failure.ok_bind]
  cases (evaluatePieces options environment free rest (results.set name value)).outcome <;> rfl

theorem outcome_ref_absent (h : results.get? name = none) (ho : options.get? name = none)
    (he : environment.get? name = none) :
    (evaluatePieces options environment free (.ref name :: rest) results).outcome
      = putBefore "" (evaluatePieces options environment free rest results).outcome := by
  rw [evaluatePieces]
  simp only [h, ho, he, Logged.outcome_bind, Logged.outcome_pure, Failure.ok_bind]
  cases (evaluatePieces options environment free rest results).outcome <;> rfl

end Steps

/-- After a reference has been looked up, the pieces behind it decide. -/
theorem Settles.ref {free : List String} {rest : List Piece} {results results₁ : Table String}
    {name value : String}
    (heq : (evaluatePieces S.options S.environment free (.ref name :: rest) results).outcome
      = putBefore value (evaluatePieces S.options S.environment free rest results₁).outcome)
    (hv : S.Value name value) (hext : results.Extends results₁)
    (hheld : name ∈ S.options.keys ∨ name ∈ S.environment.keys → name ∈ results₁.keys)
    (hrest : S.Settles free rest results₁) : S.Settles free (.ref name :: rest) results := by
  rcases hrest with ⟨text, results', hout, hm, hext', hfill, hkeys⟩ | ⟨hout, hcyc⟩
  · refine Or.inl ⟨value.toList ++ text, results', ?_, hm, hext.trans hext', hfill.ref hv, ?_⟩
    · rw [heq, hout]
      rfl
    · intro other hmem hknown
      rcases List.mem_cons.mp hmem with he | ht
      · cases he
        exact hext'.mem_keys (hheld hknown)
      · exact hkeys other ht hknown
  · refine Or.inr ⟨?_, hcyc⟩
    rw [heq, hout]
    rfl

/-- A character settles at once: it goes before whatever the rest becomes. -/
theorem Settles.char {free : List String} {rest : List Piece} {results : Table String} (c : Char)
    (hrest : S.Settles free rest results) : S.Settles free (.char c :: rest) results := by
  rcases hrest with ⟨text, results', hout, hm, hext, hfill, hkeys⟩ | ⟨hout, hcyc⟩
  · refine Or.inl ⟨c :: text, results', ?_, hm, hext, hfill.char c, ?_⟩
    · rw [outcome_char, hout]
      rfl
    · intro name hmem hknown
      rcases List.mem_cons.mp hmem with he | ht
      · cases he
      · exact hkeys name ht hknown
  · refine Or.inr ⟨?_, hcyc⟩
    rw [outcome_char, hout]
    rfl

/-- **The evaluation of pieces settles**, from any table that the invariant allows. -/
theorem settles_pieces (free : List String) (ps : List Piece) (results : Table String)
    (hm : S.Memo results) (hp : S.Entered free ps) : S.Settles free ps results := by
  induction free, ps, results using evaluatePieces.induct S.options S.environment with
  | case1 free results =>
    refine Or.inl ⟨[], results, ?_, hm, Table.Extends.refl results, Fills.nil, ?_⟩
    · rw [evaluatePieces, Logged.outcome_pure]
    · intro name hmem
      exact absurd hmem List.not_mem_nil
  | case2 free c rest results ih => exact (ih hm hp.tail).char c
  | case3 free name rest results value hheld ih =>
    exact Settles.ref (outcome_ref_held hheld) (hm.sound hheld) (Table.Extends.refl results)
      (fun _ => Table.mem_keys_of_get? hheld) (ih results hm hp.tail)
  | case4 free name rest results hnew text hopt hfree ihrest ihdown =>
    have hpend : S.Pending name text := hm.pending hnew hopt
    rcases ihdown hm (hp.down hpend) with ⟨chars, results₁, hout, hm₁, hext, hfill, hkeys⟩ | ⟨hout, hcyc⟩
    · obtain ⟨f, hf, rfl⟩ := hfill
      have hv : S.Value name (String.ofList (fill f (pieces text))) := .option f hpend hf
      have hm₂ : S.Memo (results₁.set name (String.ofList (fill f (pieces text)))) := by
        -- All that the text mentions has been looked up on the way.
        refine hm₁.set hv (Or.inl (Table.mem_keys_of_get? hopt)) ?_
        intro text' m hpend' hmem henv
        obtain rfl : text = text' := Option.some.inj (hopt.symm.trans hpend'.2)
        exact hkeys m hmem (Or.inr henv)
      refine Settles.ref ?_ hv (hext.trans (hm₁.extends_set hv)) ?_ (ihrest _ hm₂ hp.tail)
      · rw [outcome_ref_option hnew hopt hfree, hout, Failure.ok_bind]
      · intro _
        exact Table.mem_keys_set.mpr (Or.inl rfl)
    · refine Or.inr ⟨?_, hcyc⟩
      rw [outcome_ref_option hnew hopt hfree, hout, Failure.error_bind]
  | case5 free name rest results hnew text hopt hfree _ =>
    -- The option is being evaluated further up, so the references since then lead back to it.
    refine Or.inr ⟨outcome_ref_endless hnew hopt hfree, ?_⟩
    intro hacyc
    exact hacyc name
      (hp.above List.mem_cons_self (hm.pending hnew hopt) (Table.mem_keys_of_get? hopt) hfree)
  | case6 free name rest results hnew hopt value henv ih =>
    have hv : S.Value name value := .environment (hm.not_preset hnew) hopt henv
    have hreach : S.Reached name :=
      ⟨Table.mem_keys_of_get? henv,
        (hp.mentioned List.mem_cons_self).resolve_left (Table.get?_eq_none_iff.mp hopt)⟩
    have hm₁ : S.Memo (results.set name value) := by
      refine hm.set hv (Or.inr hreach) ?_
      intro text m hpend
      rw [hpend.2] at hopt
      cases hopt
    refine Settles.ref (outcome_ref_environment hnew hopt henv) hv (hm.extends_set hv) ?_
      (ih _ hm₁ hp.tail)
    intro _
    exact Table.mem_keys_set.mpr (Or.inl rfl)
  | case7 free name rest results hnew hopt henv ih =>
    refine Settles.ref (outcome_ref_absent hnew hopt henv)
      (.absent (hm.not_preset hnew) hopt henv) (Table.Extends.refl results) ?_ (ih _ hm hp.tail)
    rintro (ho | he)
    · exact absurd ho (Table.get?_eq_none_iff.mp hopt)
    · exact absurd he (Table.get?_eq_none_iff.mp henv)

end Sources

end BuildMeta.Options
