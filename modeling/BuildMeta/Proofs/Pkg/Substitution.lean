import BuildMeta.Pkg.Substitute
import BuildMeta.Proofs.Text.Plain

/-!
# `Proofs.Pkg.Substitution` — replacing the references to one variable

`Expands` says, without the workings of templates and their escapes, what a text becomes when a variable
is replaced by a plain value; it holds of a text if it does of its parts.  `substitute_of_expands` says
that substitution does just that.
-/

namespace BuildMeta.Pkg

variable {name value text text' out out' rest s : List Char}

/-- A reference to a variable. -/
def referenceTo (name : List Char) : List Char := '$' :: '\x7b' :: (name ++ ['\x7d'])

/-- `out` is what becomes of `text` if each reference to the variable is replaced by the value.
    There are no other dollar signs in the text. -/
inductive Expands (name value : List Char) : List Char → List Char → Prop
  | nil : Expands name value [] []
  | char {c : Char} {text out : List Char} (hc : c ≠ '$') (h : Expands name value text out) :
      Expands name value (c :: text) (c :: out)
  | reference {text out : List Char} (h : Expands name value text out) :
      Expands name value (referenceTo name ++ text) (value ++ out)

theorem Expands.of_not_mem (h : '$' ∉ text) : Expands name value text text := by
  induction text with
  | nil => exact .nil
  | cons c rest ih =>
    exact .char (fun e => h (e ▸ List.mem_cons_self)) (ih fun hin => h (List.mem_cons_of_mem _ hin))

theorem Expands.append (h : Expands name value text out) (h' : Expands name value text' out') :
    Expands name value (text ++ text') (out ++ out') := by
  induction h with
  | nil => exact h'
  | char hc _ ih => exact .char hc ih
  | reference _ ih =>
    rw [List.append_assoc, List.append_assoc]
    exact .reference ih

/-- A text of which every word expands expands word by word. -/
theorem Expands.join {ws ws' : List String}
    (h : List.Forall₂ (fun w w' => Expands name value w.toList w'.toList) ws ws') :
    Expands name value (Text.join " " ws).toList (Text.join " " ws').toList := by
  rw [Text.join, Text.join, String.toList_intercalate, String.toList_intercalate]
  induction h with
  | nil => exact .nil
  | cons hw hrest ih =>
    cases hrest with
    | nil => simpa using hw
    | cons hv hmore =>
      simp only [List.map_cons, List.intercalate_cons_cons] at ih ⊢
      exact (hw.append (.of_not_mem (by decide))).append ih

/-- Replacing references by a value without dollar signs leaves none. -/
theorem Expands.not_mem_out (h : Expands name value text out) (hvalue : '$' ∉ value) : '$' ∉ out := by
  induction h with
  | nil => exact List.not_mem_nil
  | char hc _ ih =>
    rw [List.mem_cons, not_or]
    exact ⟨hc.symm, ih⟩
  | reference _ ih =>
    rw [List.mem_append, not_or]
    exact ⟨hvalue, ih⟩

/-! ## References in a text -/

/-- The name of a variable. -/
structure IsVariable (name : List Char) : Prop where
  ne_nil : name ≠ []
  chars : ∀ c ∈ name, isVariableChar c = true

instance : DecidablePred IsVariable := fun name =>
  decidable_of_iff (name ≠ [] ∧ ∀ c ∈ name, isVariableChar c = true)
    ⟨fun ⟨h₁, h₂⟩ => ⟨h₁, h₂⟩, fun ⟨h₁, h₂⟩ => ⟨h₁, h₂⟩⟩

theorem IsVariable.not_mem (h : IsVariable name) {c : Char} (hc : isVariableChar c = false) :
    c ∉ name := by
  intro hin
  rw [h.chars c hin] at hc
  cases hc

theorem IsVariable.takeWhile_append (h : IsVariable name) {mark : Char}
    (hmark : isVariableChar mark = false) :
    (name ++ mark :: rest).takeWhile isVariableChar = name := by
  rw [List.takeWhile_append_of_pos h.chars, List.takeWhile_cons_of_neg (by simp [hmark]),
    List.append_nil]

/-- No reference begins in a part without dollar signs. -/
theorem referencesFrom_append {afterDollar : Bool} (hs : s ≠ []) (h : '$' ∉ s) :
    referencesFrom afterDollar (s ++ rest) = referencesFrom false rest := by
  induction s generalizing afterDollar with
  | nil => exact absurd rfl hs
  | cons c s ih =>
    have hc : (c == '$') = false := beq_false_of_ne fun e => h (e ▸ List.mem_cons_self)
    rw [List.cons_append, referencesFrom, hc]
    cases s with
    | nil => rfl
    | cons d s => exact ih (List.cons_ne_nil _ _) fun hin => h (List.mem_cons_of_mem _ hin)

theorem bracedName?_reference (hname : IsVariable name) :
    bracedName? ('\x7b' :: (name ++ '\x7d' :: rest)) = some name := by
  have hne : name.isEmpty = false := by simpa using hname.ne_nil
  unfold bracedName?
  simp only [hname.takeWhile_append (show isVariableChar '\x7d' = false by decide), List.drop_left, hne]
  rfl

/-- A reference is found, and what is inside its braces is not searched for others. -/
theorem referencesFrom_reference (hname : IsVariable name) :
    referencesFrom false (referenceTo name ++ rest) = name :: referencesFrom false rest := by
  -- After the dollar the search goes through the braces and the name and meets no other dollar.
  have hskip : '$' ∉ '\x7b' :: (name ++ ['\x7d']) := by
    simp only [List.mem_cons, List.mem_append, List.not_mem_nil, not_or, or_false]
    exact ⟨by decide, hname.not_mem (by decide), by decide⟩
  have hafter : referencesFrom true ('\x7b' :: (name ++ ['\x7d']) ++ rest) = referencesFrom false rest :=
    referencesFrom_append (List.cons_ne_nil _ _) hskip
  unfold referenceTo
  rw [List.cons_append, referencesFrom, hafter, List.cons_append, List.append_assoc,
    List.singleton_append, bracedName?_reference hname]
  rfl

/-- A text that expands refers to no other variable, and if it refers to none nothing becomes of it. -/
theorem Expands.references (h : Expands name value text out) (hname : IsVariable name) :
    (∀ n ∈ referencesFrom false text, n = name) ∧ (referencesFrom false text = [] → out = text) := by
  induction h with
  | nil => exact ⟨fun n hn => absurd hn List.not_mem_nil, fun _ => rfl⟩
  | @char c text out hc _ ih =>
    have hskip : referencesFrom false (c :: text) = referencesFrom false text := by
      rw [referencesFrom, beq_false_of_ne hc]
      rfl
    rw [hskip]
    exact ⟨ih.1, fun hnil => by rw [ih.2 hnil]⟩
  | reference _ ih =>
    rw [referencesFrom_reference hname]
    refine ⟨fun n hn => ?_, fun hnil => absurd hnil (List.cons_ne_nil _ _)⟩
    rcases List.mem_cons.mp hn with rfl | hin
    · rfl
    · exact ih.1 n hin

/-- If all members are equal, dropping repetitions leaves one of them, or there was none. -/
theorem eraseDups_of_forall_eq {α : Type} [BEq α] [LawfulBEq α] {xs : List α} {a : α}
    (h : ∀ x ∈ xs, x = a) : xs = [] ∨ xs.eraseDups = [a] := by
  cases xs with
  | nil => exact Or.inl rfl
  | cons x rest =>
    have hx : x = a := h x List.mem_cons_self
    have hrest : rest.filter (fun y => !y == x) = [] := by
      refine List.filter_eq_nil_iff.mpr fun y hy => ?_
      rw [h y (List.mem_cons_of_mem _ hy), hx]
      simp
    rw [List.eraseDups_cons, hrest, hx]
    exact Or.inr rfl

/-! ## Replacing -/

theorem readFrom_of_not_mem (h : '\\' ∉ s) : Piece.readFrom 0 s = .ok (s.map Piece.char) := by
  induction s with
  | nil => rfl
  | cons c rest ih =>
    have hc : c ≠ '\\' := fun e => h (e ▸ List.mem_cons_self)
    rw [Piece.readFrom.eq_4 c rest hc, ih fun hin => h (List.mem_cons_of_mem _ hin)]
    rfl

theorem fill_map_char (s replaced : List Char) : Piece.fill (s.map Piece.char) replaced = s := by
  induction s with
  | nil => rfl
  | cons c rest ih => exact congrArg (c :: ·) ih

theorem replaceFrom_skip {pieces : List Piece} :
    replaceFrom name pieces false s.length (s ++ rest) = replaceFrom name pieces false 0 rest := by
  induction s with
  | nil => rfl
  | cons c s ih => exact ih

/-- A name fits itself with its closing brace. -/
theorem fitsName_self : fitsName name (name ++ '\x7d' :: rest) = true := by
  induction name with
  | nil => rfl
  | cons c name ih =>
    rw [List.cons_append, fitsName, ih, Bool.and_true]
    by_cases hc : c = '.'
    · rw [hc]
      rfl
    · simp [hc]

/-- Replacing the references of a text that expands gives what it expands to. -/
theorem Expands.replaceFrom (h : Expands name value text out) :
    replaceFrom name (value.map Piece.char) false 0 text = out := by
  induction h with
  | nil => rfl
  | char hc _ ih =>
    rw [Pkg.replaceFrom, beq_false_of_ne hc]
    exact congrArg (List.cons _) ih
  | @reference text out _ ih =>
    have hlength : name.length + 2 = ('\x7b' :: (name ++ ['\x7d'])).length := by simp
    have hfits : fitsBraced name ('\x7b' :: (name ++ '\x7d' :: text)) = true := fitsName_self
    have htail : '\x7b' :: (name ++ '\x7d' :: text) = '\x7b' :: (name ++ ['\x7d']) ++ text := by simp
    have htext : referenceTo name ++ text = '$' :: '\x7b' :: (name ++ '\x7d' :: text) := by
      simp [referenceTo]
    rw [htext, Pkg.replaceFrom, hfits]
    simp only [beq_self_eq_true, Bool.not_false, Bool.and_self, if_true]
    rw [fill_map_char, htail, hlength, replaceFrom_skip, ih]

theorem replace_dollars_of_not_mem (h : '$' ∉ s) : Text.replaceFrom ['$', '$'] ['$'] 0 s = s := by
  induction s with
  | nil => rfl
  | cons c rest ih =>
    have hc : ('$' == c) = false := beq_false_of_ne fun e => h (e ▸ List.mem_cons_self)
    rw [Text.replaceFrom, if_neg (by simp [List.isPrefixOf, hc]),
      ih fun hin => h (List.mem_cons_of_mem _ hin)]

/-- **Substitution replaces the references to a variable by its value**, if this is plain. -/
theorem substitute_of_expands {text out name : String} (value : String) {vars : Table String}
    (hname : IsVariable name.toList) (hget : vars.get? name = some value)
    (hdollar : '$' ∉ value.toList) (hescape : '\\' ∉ value.toList)
    (h : Expands name.toList value.toList text.toList out.toList) :
    substitute text vars ∅ = .ok out := by
  have hdone : Text.replace out "$$" "$" = out := by
    rw [Text.replace]
    exact (congrArg String.ofList (replace_dollars_of_not_mem (h.not_mem_out hdollar))).trans
      String.ofList_toList
  obtain ⟨hall, hnone⟩ := h.references hname
  unfold substitute references
  -- All references are to one variable, so that one pass replaces them, or there are none.
  rcases eraseDups_of_forall_eq hall with hnil | hone
  · rw [hnil]
    show Except.ok (Text.replace text "$$" "$") = _
    rw [← String.toList_inj.mp (hnone hnil), hdone]
  · have hreplace : replaceReference text name value = .ok out := by
      unfold replaceReference Piece.readAll
      rw [readFrom_of_not_mem hescape]
      show Except.ok (String.ofList (Pkg.replaceFrom _ _ _ _ _)) = _
      rw [h.replaceFrom, String.ofList_toList]
    rw [hone, List.map_singleton, String.ofList_toList, List.foldlM_cons]
    simp only [Table.get?_empty, Option.none_or, hget]
    rw [hreplace]
    show Except.ok (Text.replace out "$$" "$") = _
    rw [hdone]

/-- A text without references stays as it is. -/
theorem substitute_of_not_mem {text : String} {vars : Table String} (h : '$' ∉ text.toList) :
    substitute text vars ∅ = .ok text := by
  have hnone : referencesFrom false text.toList = [] := by
    cases htext : text.toList with
    | nil => rfl
    | cons c rest =>
      have hskip : referencesFrom false (c :: rest ++ []) = referencesFrom false [] :=
        referencesFrom_append (List.cons_ne_nil c rest) (htext ▸ h)
      rwa [List.append_nil] at hskip
  unfold substitute references
  rw [hnone]
  show Except.ok (String.ofList (Text.replaceFrom ['$', '$'] ['$'] 0 text.toList)) = _
  rw [replace_dollars_of_not_mem h, String.ofList_toList]

end BuildMeta.Pkg
