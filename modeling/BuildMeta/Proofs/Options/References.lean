import BuildMeta.Options.Evaluate
import Mathlib.Data.List.TakeWhile
import Mathlib.Data.Nat.Init

/-!
# `Proofs.Options.References` — how the text of an option reads

The evaluator cuts a text into pieces with a scan that counts the characters still to be skipped.
Here the same cut is said as a relation, `Reads`, which knows nothing of the scan: a reference is taken
wherever one stands at the front of what is left, and any other character stands for itself.

* `reads_pieces` — a text reads as its pieces;
* `Reads.unique` — it reads in no other way;
* `fill` — the text with each reference replaced, and the lemmas that say which values it depends on.
-/

namespace BuildMeta.Options

/-! ## References at the front of a text -/

/-- A reference to `name` stands at the front of the text, and `rest` follows it. -/
def StartsWithRef (text name rest : List Char) : Prop :=
  name ≠ [] ∧ (∀ c ∈ name, Text.isWord c = true) ∧ text = '$' :: '(' :: (name ++ ')' :: rest)

/-- The closing bracket of a reference is no character of its name, so the name is the whole run of
    word characters before it. -/
theorem isWord_closing : Text.isWord ')' = false := by decide

theorem takeWhile_name {name : List Char} (hw : ∀ c ∈ name, Text.isWord c = true)
    (rest : List Char) : (name ++ ')' :: rest).takeWhile Text.isWord = name := by
  rw [List.takeWhile_append_of_pos hw, List.takeWhile_cons_of_neg (by rw [isWord_closing]; simp),
    List.append_nil]

theorem dropWhile_name {name : List Char} (hw : ∀ c ∈ name, Text.isWord c = true)
    (rest : List Char) : (name ++ ')' :: rest).dropWhile Text.isWord = ')' :: rest := by
  rw [List.dropWhile_append_of_pos hw, List.dropWhile_cons_of_neg (by rw [isWord_closing]; simp)]

theorem referenceAt?_of_startsWithRef {text name rest : List Char}
    (h : StartsWithRef text name rest) : referenceAt? text = some name := by
  obtain ⟨hne, hw, rfl⟩ := h
  obtain ⟨c, cs, rfl⟩ := List.exists_cons_of_ne_nil hne
  simp only [referenceAt?, takeWhile_name hw, dropWhile_name hw]

/-- The reader of references finds only what the grammar calls one. -/
theorem startsWithRef_of_referenceAt? {text name : List Char} (h : referenceAt? text = some name) :
    ∃ rest, StartsWithRef text name rest := by
  unfold referenceAt? at h
  split at h
  · rename_i tail
    split at h
    · rename_i c cs rest htake hdrop
      cases h
      refine ⟨rest, List.cons_ne_nil c cs, ?_, ?_⟩
      · intro d hd
        rw [← htake] at hd
        exact List.mem_takeWhile_imp hd
      · rw [← htake, ← hdrop, List.takeWhile_append_dropWhile]
    · cases h
  · cases h

/-! ## The cut into pieces as a relation -/

/-- How a text reads from left to right. -/
inductive Reads : List Char → List Piece → Prop
  /-- Nothing is left. -/
  | nil : Reads [] []
  /-- A reference stands at the front. -/
  | ref {text name rest : List Char} {ps : List Piece} (h : StartsWithRef text name rest)
      (hrest : Reads rest ps) : Reads text (.ref (String.ofList name) :: ps)
  /-- No reference stands at the front, so the first character stands for itself. -/
  | char {c : Char} {rest : List Char} {ps : List Piece}
      (h : ∀ name after, ¬ StartsWithRef (c :: rest) name after) (hrest : Reads rest ps) :
      Reads (c :: rest) (.char c :: ps)

/-- The name of a reference and the text after it are determined by the text. -/
theorem StartsWithRef.unique {text name name' rest rest' : List Char}
    (h : StartsWithRef text name rest) (h' : StartsWithRef text name' rest') :
    name = name' ∧ rest = rest' := by
  have hname : name = name' := by
    have h₁ := referenceAt?_of_startsWithRef h
    rw [referenceAt?_of_startsWithRef h'] at h₁
    exact (Option.some.inj h₁).symm
  subst hname
  refine ⟨rfl, ?_⟩
  have htext := h.2.2.symm.trans h'.2.2
  simpa using htext

/-- **A text reads in one way only.** -/
theorem Reads.unique {text : List Char} {ps qs : List Piece} (h : Reads text ps)
    (h' : Reads text qs) : ps = qs := by
  induction h generalizing qs with
  | nil =>
    cases h' with
    | nil => rfl
    | ref hs _ => exact absurd hs.2.2 (by simp)
  | ref hs _ ih =>
    cases h' with
    | nil => exact absurd hs.2.2 (by simp)
    | ref hs' hrest' =>
      obtain ⟨rfl, rfl⟩ := hs.unique hs'
      rw [ih hrest']
    | char hno _ => exact absurd hs (hno _ _)
  | char hno _ ih =>
    cases h' with
    | ref hs' _ => exact absurd hs' (hno _ _)
    | char _ hrest' => rw [ih hrest']

/-- Skipping characters is the same as scanning the text without them. -/
theorem piecesFrom_eq_drop (skip : Nat) (text : List Char) :
    piecesFrom skip text = piecesFrom 0 (text.drop skip) := by
  induction text generalizing skip with
  | nil => cases skip <;> simp [piecesFrom]
  | cons c rest ih =>
    cases skip with
    | zero => rfl
    | succ skip => rw [piecesFrom, ih, List.drop_succ_cons]

/-- **The pieces of a text are those that the grammar reads.** -/
theorem reads_piecesFrom (text : List Char) : Reads text (piecesFrom 0 text) := by
  -- The scan goes on after a whole reference, so the induction is on the length of the text.
  induction hlen : text.length using Nat.strong_induction_on generalizing text with
  | _ len ih =>
    cases text with
    | nil => exact Reads.nil
    | cons c rest =>
      rw [piecesFrom]
      cases href : referenceAt? (c :: rest) with
      | some name =>
        obtain ⟨after, hs⟩ := startsWithRef_of_referenceAt? href
        have hafter : rest.drop (name.length + 2) = after := by
          have htext : rest = '(' :: (name ++ ')' :: after) := (List.cons.inj hs.2.2).2
          rw [htext, List.drop_succ_cons, ← List.drop_drop, List.drop_left, List.drop_one,
            List.tail_cons]
        have hshort : after.length < len := by
          have htext := congrArg List.length hs.2.2
          simp only [List.length_cons, List.length_append] at htext hlen
          omega
        simp only [piecesFrom_eq_drop (name.length + 2), hafter]
        exact Reads.ref hs (ih after.length hshort after rfl)
      | none =>
        refine Reads.char ?_ (ih rest.length (by simp only [List.length_cons] at hlen; omega) rest rfl)
        intro name after hs
        rw [referenceAt?_of_startsWithRef hs] at href
        cases href

/-- **A text reads as its pieces.** -/
theorem reads_pieces (text : String) : Reads text.toList (pieces text) :=
  reads_piecesFrom text.toList

theorem reads_iff {text : String} {ps : List Piece} : Reads text.toList ps ↔ ps = pieces text :=
  ⟨fun h => h.unique (reads_pieces text), fun h => h ▸ reads_pieces text⟩

/-! ## Filling in values -/

/-- The text that results from putting values in place of the references. -/
def fill (value : String → String) : List Piece → List Char
  | [] => []
  | .char c :: ps => c :: fill value ps
  | .ref name :: ps => (value name).toList ++ fill value ps

/-- The filled text depends on the values of the names that occur in it and on no others. -/
theorem fill_congr {value value' : String → String} {ps : List Piece}
    (h : ∀ name, .ref name ∈ ps → value name = value' name) : fill value ps = fill value' ps := by
  induction ps with
  | nil => rfl
  | cons p ps ih =>
    have htail := ih fun name hm => h name (List.mem_cons_of_mem _ hm)
    cases p with
    | char c => rw [fill, fill, htail]
    | ref name => rw [fill, fill, htail, h name List.mem_cons_self]

end BuildMeta.Options
