import BuildMeta.Proofs.Outcome
import BuildMeta.Proofs.Pkg.Substitution

/-!
# `Proofs.Pkg.OnePass` — substitution and one literal pass over a value

Substitution goes through a value once for every name that it refers to.  What should come out is
the result of one pass (`onePass`): the value falls apart into characters, pairs of dollar signs and
references (`stretches`), and each part is put out by itself.

The passes agree with the one pass as long as no pass does anything to what an earlier one has put
in, and each finds its own references only:

* the texts put in are inert (`isInert`): they hold no escape, no pair, no reference, and no sign at
  their end that could do something to what comes behind them;
* nothing can be taken for a reference to a name but references to it (`unmistaken`).  A dot in a
  name fits any character, and a text put in may complete a reference that the value has only begun.

The proof follows the value through the passes: after some names the stretches that refer to them
show the texts put in and all others what they were (`Stretch.shown`), and the next pass does what
it should (`replaceFrom_shown`).
-/

namespace BuildMeta.Pkg

variable {name rest s t : List Char} {b : Bool}

/-! ## Parts of a value -/

/-- A part of a value. -/
inductive Stretch where
  | char (c : Char)
  /-- Two dollar signs, which stand for one. -/
  | pair
  | reference (name : List Char)
deriving Repr, BEq, DecidableEq, Inhabited

/-- The stretches of a text.  A dollar sign makes a reference unless another one stands before it;
    `skip` characters belong to the part read last. -/
def stretchesFrom (afterDollar : Bool) : Nat → List Char → List Stretch
  | _, [] => []
  | skip + 1, _ :: rest => stretchesFrom afterDollar skip rest
  | 0, c :: rest =>
    if c != '$' then .char c :: stretchesFrom false 0 rest
    else
      match if afterDollar then none else bracedName? rest with
      | some name => .reference name :: stretchesFrom false (name.length + 2) rest
      | none =>
        if rest.head? == some '$' then .pair :: stretchesFrom true 1 rest
        else .char c :: stretchesFrom true 0 rest

/-- The stretches of a text. -/
def stretches (text : String) : List Stretch := stretchesFrom false 0 text.toList

/-- The text of a variable; one that is not defined has none. -/
def textOf (value : String → Option String) (name : List Char) : List Char :=
  ((value (String.ofList name)).getD "").toList

namespace Stretch

/-- What a part is written as. -/
def source : Stretch → List Char
  | char c => [c]
  | pair => ['$', '$']
  | reference name => referenceTo name

/-- What stands for a part in the end: a pair is one dollar sign, and a reference the text of its
    variable. -/
def put (value : String → Option String) : Stretch → List Char
  | char c => [c]
  | pair => ['$']
  | reference name => textOf value name

/-- What stands for a part after the passes for some names: of the references only those to these
    names are replaced. -/
def shown (value : String → Option String) (done : List (List Char)) : Stretch → List Char
  | char c => [c]
  | pair => ['$', '$']
  | reference name => if name ∈ done then textOf value name else referenceTo name

end Stretch

/-- The text that one pass makes of a text: no part depends on another, and what is put in is not
    read again. -/
def onePass (value : String → Option String) (text : String) : String :=
  String.ofList ((stretches text).flatMap (Stretch.put value))

/-- The text that is defined for a name.  Global variables come before others. -/
def definedText? (vars globals : Table String) (name : String) : Option String :=
  (globals.get? name).or (vars.get? name)

/-! ## Conditions -/

/-- Whether a character does something to the one behind it: a backslash escapes letters, digits and
    backslashes, and a dollar sign makes a pair or opens a reference. -/
def actsOn (c d : Char) : Bool :=
  (c == '\\' && (d.isAlphanum || d == '\\')) || (c == '$' && (d == '$' || d == '\x7b'))

/-- Whether no character of a text does anything to what stands behind it, inside the text or after
    it. -/
def isInert : List Char → Bool
  | [] => true
  | [c] => c != '\\' && c != '$'
  | c :: d :: rest => !actsOn c d && isInert (d :: rest)

/-- Whether a name with its closing brace may fit the front of a text.  A dot in the name fits any
    character, and from the first dollar sign on the text may become anything. -/
def mayFit : List Char → List Char → Bool
  | _, [] => false
  | [], c :: _ => c == '$' || c == '\x7d'
  | n :: name, c :: rest => c == '$' || (if n == '.' then c != '\n' else n == c) && mayFit name rest

/-- Whether nothing in a text can be taken for a reference to a name but the references to it. -/
def unmistaken (name : List Char) (afterDollar : Bool) : List Char → Bool
  | [] => true
  | c :: rest =>
    (c != '$' || afterDollar || rest.head? != some '\x7b' || bracedName? rest == some name ||
      !mayFit name (rest.drop 1)) && unmistaken name (c == '$') rest

/-! ## Reading the stretches -/

/-- A name in braces is one of a variable, and the closing brace follows it. -/
theorem bracedName?_eq_some (h : bracedName? s = some name) :
    IsVariable name ∧ ∃ rest, s = '\x7b' :: (name ++ '\x7d' :: rest) := by
  unfold bracedName? at h
  split at h
  · next rest =>
    dsimp only at h
    split at h
    · next hcond =>
      obtain rfl := Option.some.inj h
      rw [Bool.and_eq_true, Bool.not_eq_true'] at hcond
      obtain ⟨hne, hclose⟩ := hcond
      have hvariable : IsVariable (rest.takeWhile isVariableChar) :=
        ⟨by simpa using hne, fun c hc => List.mem_takeWhile_imp hc⟩
      obtain ⟨tail, htail⟩ := List.head?_eq_some_iff.mp (eq_of_beq hclose)
      refine ⟨hvariable, tail, ?_⟩
      rw [← htail]
      exact congrArg _ (List.prefix_iff_eq_append.mp (List.takeWhile_prefix _)).symm
    · cases h
  · cases h

/-- `ps` are the stretches of a text; `b` tells whether a dollar sign stands before it. -/
inductive Scan : Bool → List Char → List Stretch → Prop
  | nil {b : Bool} : Scan b [] []
  | char {b : Bool} {c : Char} {rest : List Char} {ps : List Stretch} (hc : c ≠ '$')
      (h : Scan false rest ps) :
      Scan b (c :: rest) (.char c :: ps)
  | reference {name rest : List Char} {ps : List Stretch} (hname : IsVariable name)
      (h : Scan false rest ps) :
      Scan false (referenceTo name ++ rest) (.reference name :: ps)
  | pair {b : Bool} {rest : List Char} {ps : List Stretch} (h : Scan true rest ps) :
      Scan b ('$' :: '$' :: rest) (.pair :: ps)
  | dollar {b : Bool} {rest : List Char} {ps : List Stretch} (hnext : rest.head? ≠ some '$')
      (hname : b = false → bracedName? rest = none) (h : Scan true rest ps) :
      Scan b ('$' :: rest) (.char '$' :: ps)

/-- **The stretches of a text are those of the grammar.** -/
theorem scan_stretchesFrom (b : Bool) (skip : Nat) (s : List Char) :
    Scan b (s.drop skip) (stretchesFrom b skip s) := by
  -- The characters of the part read last are passed one by one, so the induction is on the text for
  -- any `skip`.
  induction s generalizing b skip with
  | nil =>
    rw [List.drop_nil]
    cases skip <;> exact .nil
  | cons c rest ih =>
    cases skip with
    | succ skip => exact ih b skip
    | zero =>
      rw [List.drop_zero, stretchesFrom]
      by_cases hc : c = '$'
      · subst hc
        simp only [bne_self_eq_false, Bool.false_eq_true, if_false]
        split
        · next name hname =>
          cases b with
          | true => cases hname
          | false =>
            obtain ⟨hvariable, tail, rfl⟩ := bracedName?_eq_some hname
            have hdrop : ('\x7b' :: (name ++ '\x7d' :: tail)).drop (name.length + 2) = tail := by
              rw [List.drop_succ_cons, ← List.drop_drop, List.drop_left]
              rfl
            have htext : '$' :: '\x7b' :: (name ++ '\x7d' :: tail) = referenceTo name ++ tail := by
              simp [referenceTo]
            have htail := ih false (name.length + 2)
            rw [hdrop] at htail
            rw [htext]
            exact .reference hvariable htail
        · next hname =>
          have hnone : b = false → bracedName? rest = none := by
            rintro rfl
            exact hname
          split
          · next hhead =>
            obtain ⟨tail, rfl⟩ := List.head?_eq_some_iff.mp (eq_of_beq hhead)
            exact .pair (ih true 1)
          · next hhead => exact .dollar (by simpa using hhead) hnone (ih true 0)
      · rw [if_pos (by simpa using hc)]
        exact .char hc (ih false 0)

/-- **The stretches of a text make up the text.** -/
theorem Scan.flatMap_source {ps : List Stretch} (h : Scan b s ps) : ps.flatMap Stretch.source = s := by
  induction h with
  | nil => rfl
  | char _ _ ih | reference _ _ ih | pair _ ih | dollar _ _ _ ih =>
    rw [List.flatMap_cons, ih]
    rfl

/-- The references among the stretches are the references of the text. -/
theorem Scan.mem_referencesFrom {ps : List Stretch} (h : Scan b s ps) (hin : .reference name ∈ ps) :
    name ∈ referencesFrom b s := by
  induction h with
  | nil => exact absurd hin List.not_mem_nil
  | @char b c rest ps hc _ ih =>
    rw [referencesFrom, beq_false_of_ne hc]
    exact ih (by simpa using hin)
  | @reference name' rest ps hname _ ih =>
    rw [referencesFrom_reference hname]
    rcases List.mem_cons.mp hin with hself | hin
    · rw [Stretch.reference.inj hself]
      exact List.mem_cons_self
    · exact List.mem_cons_of_mem _ (ih hin)
  | @pair b rest ps _ ih =>
    have hpart : name ∈ referencesFrom true rest := ih (by simpa using hin)
    rw [referencesFrom, referencesFrom]
    exact List.mem_append_right _ (List.mem_append_right _ hpart)
  | @dollar b rest ps _ _ _ ih =>
    rw [referencesFrom]
    exact List.mem_append_right _ (ih (by simpa using hin))

/-! ## Inert texts -/

/-- A backslash that escapes nothing is a template for itself. -/
theorem ofEscape_of_not_acts {d : Char} (h : actsOn '\\' d = false) :
    Piece.ofEscape (d :: rest) = .ok ([.char '\\', .char d], 1) := by
  have hplain : d.isAlphanum = false ∧ d ≠ '\\' := by simpa [actsOn] using h
  obtain ⟨hletter, hslash⟩ := hplain
  have hkind : d.isAlpha = false ∧ d.isDigit = false := by simpa [Char.isAlphanum] using hletter
  obtain ⟨halpha, hdigit⟩ := hkind
  have hne : ∀ c : Char, c.isAlphanum = true → d ≠ c := by
    rintro c hc rfl
    rw [hletter] at hc
    cases hc
  have hescape : Piece.escape? d = none := by
    unfold Piece.escape?
    split <;> first | rfl | exact absurd rfl (hne _ (by decide)) | exact absurd rfl hslash
  unfold Piece.ofEscape
  split
  · next heq => cases heq
  · next heq => exact absurd (List.cons.inj heq).1 (hne 'g' (by decide))
  · next heq => exact absurd (List.cons.inj heq).1 (hne '0' (by decide))
  · next c tail _ _ heq =>
    obtain ⟨rfl, rfl⟩ := List.cons.inj heq
    rw [hdigit, hescape, halpha]
    rfl

/-- **An inert text is a template for itself.** -/
theorem readFrom_of_isInert (h : isInert t = true) : Piece.readFrom 0 t = .ok (t.map Piece.char) := by
  fun_induction isInert t with
  | case1 => rfl
  | case2 c =>
    obtain ⟨hc, _⟩ : c ≠ '\\' ∧ c ≠ '$' := by simpa using h
    exact readFrom_of_not_mem (by simpa using hc.symm)
  | case3 c d rest ih =>
    rw [Bool.and_eq_true, Bool.not_eq_true'] at h
    have hrest := ih h.2
    by_cases hc : c = '\\'
    · -- The backslash takes the next character along, so the rest is read from behind that one.
      subst hc
      have hd : d ≠ '\\' := by
        rintro rfl
        simp [actsOn] at h
      rw [Piece.readFrom.eq_4 d rest hd] at hrest
      obtain ⟨more, hmore, hout⟩ := Failure.bind_eq_ok_iff.mp hrest
      rw [Piece.readFrom, ofEscape_of_not_acts h.1, Failure.ok_bind]
      show (Piece.readFrom 0 rest >>= fun r => .ok ([Piece.char '\\', .char d] ++ r)) = _
      rw [hmore, Failure.ok_bind]
      exact congrArg (fun x => Except.ok (Piece.char '\\' :: x)) (Except.ok.inj hout)
    · rw [Piece.readFrom.eq_4 c (d :: rest) hc, hrest]
      rfl

theorem isInert_dollar {d : Char} (h : isInert ('$' :: d :: rest) = true) : d ≠ '$' ∧ d ≠ '\x7b' := by
  rw [isInert, Bool.and_eq_true, Bool.not_eq_true'] at h
  simpa [actsOn] using h.1

/-- A pass for a name goes over an inert text without finding anything, and leaves it behind without
    a trace. -/
theorem replaceFrom_inert {pieces : List Piece} (h : isInert t = true) (hne : t ≠ [] ∨ b = false) :
    replaceFrom name pieces b 0 (t ++ rest) = t ++ replaceFrom name pieces false 0 rest := by
  fun_induction isInert t generalizing b with
  | case1 =>
    obtain rfl : b = false := hne.resolve_left fun hnil => hnil rfl
    rfl
  | case2 c =>
    obtain ⟨_, hc⟩ : c ≠ '\\' ∧ c ≠ '$' := by simpa using h
    rw [List.singleton_append, replaceFrom, beq_false_of_ne hc]
    rfl
  | case3 c d tail ih =>
    have htail : isInert (d :: tail) = true := (Bool.and_eq_true_iff.mp h).2
    have hstep : (c == '$' && !b && fitsBraced name (d :: tail ++ rest)) = false := by
      by_cases hc : c = '$'
      · subst hc
        have hd : fitsBraced name (d :: tail ++ rest) = false := by
          unfold fitsBraced
          split
          · next heq => exact absurd (List.cons.inj heq).1 (isInert_dollar h).2
          · rfl
        rw [hd, Bool.and_false]
      · rw [beq_false_of_ne hc, Bool.false_and, Bool.false_and]
    rw [List.cons_append, replaceFrom, if_neg (by rw [hstep]; decide),
      ih htail (Or.inl (List.cons_ne_nil _ _))]
    rfl

/-- Making one dollar sign of two does not change an inert text, nor what stands behind it. -/
theorem replace_dollars_inert (h : isInert t = true) :
    Text.replaceFrom ['$', '$'] ['$'] 0 (t ++ rest) = t ++ Text.replaceFrom ['$', '$'] ['$'] 0 rest := by
  fun_induction isInert t with
  | case1 => rfl
  | case2 c =>
    obtain ⟨_, hc⟩ : c ≠ '\\' ∧ c ≠ '$' := by simpa using h
    rw [List.singleton_append, Text.replaceFrom, if_neg (by simp [List.isPrefixOf, hc.symm])]
    rfl
  | case3 c d tail ih =>
    have htail : isInert (d :: tail) = true := (Bool.and_eq_true_iff.mp h).2
    have hstep : ¬ (['$', '$'].isPrefixOf (c :: (d :: tail ++ rest)) = true) := by
      intro hpair
      simp only [List.isPrefixOf, List.cons_append, Bool.and_eq_true, beq_iff_eq, Bool.and_true] at hpair
      obtain ⟨rfl, hd⟩ := hpair
      exact (isInert_dollar h).1 hd.symm
    rw [List.cons_append, Text.replaceFrom, if_neg hstep, ih htail]
    rfl

/-! ## The passes -/

/-- What a pass leaves as it is: a text without dollar signs. -/
theorem replaceFrom_of_not_mem {pieces : List Piece} (hs : s ≠ []) (h : '$' ∉ s) :
    replaceFrom name pieces b 0 (s ++ rest) = s ++ replaceFrom name pieces false 0 rest := by
  induction s generalizing b with
  | nil => exact absurd rfl hs
  | cons c s ih =>
    have hc : (c == '$') = false := beq_false_of_ne fun e => h (e ▸ List.mem_cons_self)
    rw [List.cons_append, replaceFrom, hc]
    cases s with
    | nil => rfl
    | cons d s =>
      exact congrArg (c :: ·) (ih (List.cons_ne_nil _ _) fun hin => h (List.mem_cons_of_mem _ hin))

/-- In a text without dollar signs no reference can be mistaken for another. -/
theorem unmistaken_append (hs : s ≠ []) (h : '$' ∉ s) :
    unmistaken name b (s ++ rest) = unmistaken name false rest := by
  induction s generalizing b with
  | nil => exact absurd rfl hs
  | cons c s ih =>
    have hc : c ≠ '$' := fun e => h (e ▸ List.mem_cons_self)
    rw [List.cons_append, unmistaken, beq_false_of_ne hc, bne_iff_ne.mpr hc]
    cases s with
    | nil => rfl
    | cons d s => exact ih (List.cons_ne_nil _ _) fun hin => h (List.mem_cons_of_mem _ hin)

/-- What stands in braces holds no dollar sign. -/
theorem IsVariable.not_mem_braced (h : IsVariable name) : '$' ∉ '\x7b' :: (name ++ ['\x7d']) := by
  simp only [List.mem_cons, List.mem_append, List.not_mem_nil, not_or, or_false]
  exact ⟨by decide, h.not_mem (by decide), by decide⟩

variable {value : String → Option String} {done names : List (List Char)} {ps : List Stretch}

/-- What stands behind a dollar sign that makes no pair is a character, and no pass changes it. -/
theorem Scan.head?_shown (h : Scan true s ps) (hs : s.head? ≠ some '$') :
    (ps.flatMap (Stretch.shown value done)).head? = s.head? := by
  cases h with
  | nil => rfl
  | char => rfl
  | pair => exact absurd rfl hs
  | dollar => exact absurd rfl hs

theorem fitsBraced_of_head? (h : s.head? ≠ some '\x7b') : fitsBraced name s = false := by
  unfold fitsBraced
  split
  · exact absurd rfl h
  · rfl

/-- A text without dollar signs is looked at as it is. -/
theorem mayFit_append {front text : List Char} (hfront : '$' ∉ front)
    (h : ∀ name, fitsName name text = true → mayFit name rest = true)
    (hfits : fitsName name (front ++ text) = true) :
    mayFit name (front ++ rest) = true := by
  induction front generalizing name with
  | nil => exact h name hfits
  | cons c front ih =>
    rw [List.mem_cons, not_or] at hfront
    cases name with
    | nil =>
      obtain rfl : c = '\x7d' := by simpa [fitsName] using hfits
      rfl
    | cons n name =>
      rw [List.cons_append, fitsName, Bool.and_eq_true] at hfits
      rw [List.cons_append, mayFit, hfits.1, ih hfront.2 hfits.2]
      exact Bool.or_true _

/-- Whatever the passes have made of a text, a name that fits it was one that might. -/
theorem Scan.mayFit_of_fitsName (h : Scan b s ps)
    (hfits : fitsName name (ps.flatMap (Stretch.shown value done)) = true) :
    mayFit name s = true := by
  induction h generalizing name with
  | nil => cases name <;> cases hfits
  | @char b c rest ps hc _ ih =>
    have hone : '$' ∉ [c] := by simpa using hc.symm
    exact mayFit_append hone (fun _ => ih) hfits
  | reference => cases name <;> rfl
  | pair => cases name <;> rfl
  | dollar => cases name <;> rfl

/-- A pass finds nothing at a single dollar sign that makes no reference to its name. -/
theorem fitsBraced_shown (hscan : Scan true rest ps) (hnext : rest.head? ≠ some '$')
    (hother : bracedName? rest ≠ some name) (h : unmistaken name false ('$' :: rest) = true) :
    fitsBraced name (ps.flatMap (Stretch.shown value done)) = false := by
  by_cases hbrace : rest.head? = some '\x7b'
  · obtain ⟨tail, rfl⟩ := List.head?_eq_some_iff.mp hbrace
    rw [unmistaken, Bool.and_eq_true] at h
    have hunfit : mayFit name tail = false := by simpa [hother] using h.1
    cases hscan with
    | char _ htail =>
      rw [← Bool.not_eq_true]
      intro hfits
      rw [htail.mayFit_of_fitsName hfits] at hunfit
      cases hunfit
  · apply fitsBraced_of_head?
    rwa [hscan.head?_shown hnext]

/-- A pass deals with a reference that is still there: it replaces one to its name and keeps any
    other. -/
theorem replaceFrom_reference {m : List Char} (hm : IsVariable m) (hscan : Scan false rest ps)
    (h : unmistaken name false (referenceTo m ++ rest) = true) :
    replaceFrom name (t.map Piece.char) false 0
      (referenceTo m ++ ps.flatMap (Stretch.shown value done)) =
      (if m = name then t else referenceTo m) ++
        replaceFrom name (t.map Piece.char) false 0 (ps.flatMap (Stretch.shown value done)) := by
  rw [referenceTo, List.cons_append, replaceFrom]
  by_cases hself : m = name
  · subst hself
    have hlength : m.length + 2 = ('\x7b' :: (m ++ ['\x7d'])).length := by simp
    have hfits : fitsBraced m ('\x7b' :: (m ++ ['\x7d']) ++ ps.flatMap (Stretch.shown value done))
        = true := by
      rw [List.cons_append, List.append_assoc]
      exact fitsName_self
    rw [hfits, if_pos (by decide), if_pos rfl, fill_map_char, hlength, replaceFrom_skip]
  · have hother :
        fitsBraced name ('\x7b' :: (m ++ ['\x7d']) ++ ps.flatMap (Stretch.shown value done))
          = false := by
      have hbraced : bracedName? ('\x7b' :: (m ++ ['\x7d']) ++ rest) = some m := by
        rw [List.cons_append, List.append_assoc]
        exact bracedName?_reference hm
      rw [referenceTo, List.cons_append, unmistaken, Bool.and_eq_true, hbraced] at h
      have hunfit : mayFit name ((m ++ ['\x7d']) ++ rest) = false := by simpa [hself] using h.1
      rw [← Bool.not_eq_true]
      intro hfits
      rw [mayFit_append (fun hin => hm.not_mem_braced (List.mem_cons_of_mem _ hin))
        (fun _ => hscan.mayFit_of_fitsName) hfits] at hunfit
      cases hunfit
    rw [hother, Bool.and_false, if_neg (by decide), if_neg hself,
      replaceFrom_of_not_mem (List.cons_ne_nil _ _) hm.not_mem_braced]
    rfl

/-- **One pass replaces the references to its name.**  The others stay, and so do the texts that
    earlier passes have put in. -/
theorem replaceFrom_shown (hinert : ∀ m ∈ names, isInert (textOf value m) = true) (hscan : Scan b s ps)
    (hsole : unmistaken name b s = true) (hrefs : ∀ m, .reference m ∈ ps → m ∈ names) :
    replaceFrom name ((textOf value name).map Piece.char) b 0 (ps.flatMap (Stretch.shown value done)) =
      ps.flatMap (Stretch.shown value (name :: done)) := by
  induction hscan with
  | nil => rfl
  | @char b c rest ps hc _ ih =>
    rw [unmistaken, Bool.and_eq_true, beq_false_of_ne hc] at hsole
    have hrest := ih hsole.2 fun m hm => hrefs m (List.mem_cons_of_mem _ hm)
    rw [List.flatMap_cons, List.flatMap_cons, ← hrest, Stretch.shown, Stretch.shown,
      List.singleton_append, replaceFrom, beq_false_of_ne hc]
    rfl
  | @reference m rest ps hm hscan ih =>
    have htail : unmistaken name false rest = true := by
      rw [referenceTo, List.cons_append, unmistaken, Bool.and_eq_true, beq_self_eq_true,
        unmistaken_append (List.cons_ne_nil _ _) hm.not_mem_braced] at hsole
      exact hsole.2
    have hrest := ih htail fun k hk => hrefs k (List.mem_cons_of_mem _ hk)
    rw [List.flatMap_cons, List.flatMap_cons, ← hrest, Stretch.shown, Stretch.shown]
    by_cases hdone : m ∈ done
    · -- An earlier pass has replaced the reference.
      rw [if_pos hdone, if_pos (List.mem_cons_of_mem _ hdone)]
      exact replaceFrom_inert (hinert m (hrefs m List.mem_cons_self)) (Or.inr rfl)
    · rw [if_neg hdone, replaceFrom_reference hm hscan hsole]
      by_cases hself : m = name
      · rw [if_pos hself, if_pos (hself ▸ List.mem_cons_self), hself]
      · rw [if_neg hself, if_neg (by simp [hself, hdone])]
  | @pair b rest ps _ ih =>
    rw [unmistaken, unmistaken, Bool.and_eq_true, Bool.and_eq_true] at hsole
    have hrest := ih hsole.2.2 fun m hm => hrefs m (List.mem_cons_of_mem _ hm)
    rw [List.flatMap_cons, List.flatMap_cons, ← hrest, Stretch.shown, Stretch.shown,
      List.cons_append, replaceFrom, fitsBraced_of_head? (by simp), Bool.and_false,
      if_neg (by decide), List.singleton_append, replaceFrom]
    rfl
  | @dollar b rest ps hnext hnone hscan ih =>
    have hstep : ('$' == '$' && !b && fitsBraced name (ps.flatMap (Stretch.shown value done)))
        = false := by
      cases b with
      | true => rfl
      | false => rw [fitsBraced_shown hscan hnext (by simp [hnone rfl]) hsole, Bool.and_false]
    rw [unmistaken, Bool.and_eq_true] at hsole
    have hrest := ih hsole.2 fun m hm => hrefs m (List.mem_cons_of_mem _ hm)
    rw [List.flatMap_cons, List.flatMap_cons, ← hrest, Stretch.shown, Stretch.shown,
      List.singleton_append, replaceFrom, hstep]
    rfl

/-- When all references are replaced, making one dollar sign of two gives the result of the one pass. -/
theorem replace_dollars_shown (hinert : ∀ m ∈ names, isInert (textOf value m) = true)
    (hdone : ∀ m ∈ names, m ∈ done) (hscan : Scan b s ps) (hrefs : ∀ m, .reference m ∈ ps → m ∈ names) :
    Text.replaceFrom ['$', '$'] ['$'] 0 (ps.flatMap (Stretch.shown value done))
      = ps.flatMap (Stretch.put value) := by
  induction hscan with
  | nil => rfl
  | @char b c rest ps hc _ ih =>
    have hrest := ih fun m hm => hrefs m (List.mem_cons_of_mem _ hm)
    rw [List.flatMap_cons, List.flatMap_cons, ← hrest, Stretch.shown, Stretch.put,
      List.singleton_append, Text.replaceFrom, if_neg (by simp [List.isPrefixOf, hc.symm])]
    rfl
  | @reference m rest ps hm _ ih =>
    have hrest := ih fun k hk => hrefs k (List.mem_cons_of_mem _ hk)
    have hmem : m ∈ names := hrefs m List.mem_cons_self
    rw [List.flatMap_cons, List.flatMap_cons, ← hrest, Stretch.shown, if_pos (hdone m hmem)]
    exact replace_dollars_inert (hinert m hmem)
  | @pair b rest ps _ ih =>
    have hrest := ih fun m hm => hrefs m (List.mem_cons_of_mem _ hm)
    rw [List.flatMap_cons, List.flatMap_cons, ← hrest]
    rfl
  | @dollar b rest ps hnext hnone hscan ih =>
    have hrest := ih fun m hm => hrefs m (List.mem_cons_of_mem _ hm)
    have hsingle : ¬ (['$', '$'].isPrefixOf ('$' :: ps.flatMap (Stretch.shown value done)) = true) := by
      intro hpair
      have hhead : (ps.flatMap (Stretch.shown value done)).head? = rest.head? := hscan.head?_shown hnext
      obtain ⟨tail, htail⟩ := List.isPrefixOf_iff_prefix.mp hpair
      rw [← (List.cons.inj htail).2] at hhead
      exact hnext hhead.symm
    rw [List.flatMap_cons, List.flatMap_cons, ← hrest, Stretch.shown, Stretch.put,
      List.singleton_append, Text.replaceFrom, if_neg hsingle]
    rfl

/-! ## All passes -/

/-- One turn of substitution: all references to a name. -/
def replaceName (vars globals : Table String) (text name : String) : Except Failure String :=
  match definedText? vars globals name with
  | some template => replaceReference text name template
  | none => throw (.undefinedVariable name none)

theorem substitute_eq (text : String) (vars globals : Table String) :
    substitute text vars globals
      = (references text).foldlM (replaceName vars globals) text >>= fun replaced =>
      .ok (Text.replace replaced "$$" "$") := rfl

/-- A turn succeeds on any text if the name is defined and its text is a template. -/
theorem replaceName_ok_iff {vars globals : Table String} {text name : String} :
    (∃ out, replaceName vars globals text name = .ok out) ↔
      ∃ template pieces, definedText? vars globals name = some template ∧
        Piece.readAll template = .ok pieces := by
  unfold replaceName
  cases definedText? vars globals name with
  | none => simp [throw, throwThe, MonadExceptOf.throw]
  | some template =>
    constructor
    · rintro ⟨out, hout⟩
      obtain ⟨pieces, hpieces, _⟩ := Failure.bind_eq_ok_iff.mp hout
      exact ⟨template, pieces, rfl, hpieces⟩
    · rintro ⟨_, pieces, ⟨⟩, hpieces⟩
      exact ⟨_, Failure.bind_eq_ok_iff.mpr ⟨pieces, hpieces, rfl⟩⟩

/-- **Substitution succeeds if and only if every name has a text that is a template.** -/
theorem substitute_ok_iff {text : String} {vars globals : Table String} :
    (∃ out, substitute text vars globals = .ok out) ↔ ∀ name ∈ references text,
      ∃ template pieces, definedText? vars globals name = some template ∧
        Piece.readAll template = .ok pieces := by
  -- Whether a turn succeeds does not depend on the text that the turns before have left.
  have hturns : ∀ (names : List String) (value : String),
      (∃ out, names.foldlM (replaceName vars globals) value = .ok out) ↔ ∀ name ∈ names,
        ∃ template pieces, definedText? vars globals name = some template ∧
        Piece.readAll template = .ok pieces := by
    intro names
    induction names with
    | nil => exact fun value =>
      ⟨fun _ name hname => absurd hname List.not_mem_nil, fun _ => ⟨value, rfl⟩⟩
    | cons name names ih =>
      intro value
      rw [List.foldlM_cons, List.forall_mem_cons]
      constructor
      · rintro ⟨out, hout⟩
        obtain ⟨next, hnext, hrest⟩ := Failure.bind_eq_ok_iff.mp hout
        exact ⟨replaceName_ok_iff.mp ⟨next, hnext⟩, (ih next).mp ⟨out, hrest⟩⟩
      · rintro ⟨hname, hnames⟩
        obtain ⟨next, hnext⟩ := replaceName_ok_iff.mpr hname
        obtain ⟨out, hout⟩ := (ih next).mpr hnames
        exact ⟨out, Failure.bind_eq_ok_iff.mpr ⟨next, hnext, hout⟩⟩
  rw [← hturns _ text, substitute_eq]
  constructor
  · rintro ⟨out, hout⟩
    obtain ⟨replaced, hreplaced, _⟩ := Failure.bind_eq_ok_iff.mp hout
    exact ⟨replaced, hreplaced⟩
  · rintro ⟨replaced, hreplaced⟩
    exact ⟨_, Failure.bind_eq_ok_iff.mpr ⟨replaced, hreplaced, rfl⟩⟩

/-- The passes for some names show the texts of these names. -/
theorem foldlM_replaceName {vars globals : Table String} {text : String}
    (hdefined : ∀ m ∈ names, (definedText? vars globals (String.ofList m)).isSome = true)
    (hinert : ∀ m ∈ names, isInert (textOf (definedText? vars globals) m) = true)
    (hsole : ∀ m ∈ names, unmistaken m false text.toList = true) (hscan : Scan false text.toList ps)
    (hrefs : ∀ m, .reference m ∈ ps → m ∈ names) (turns : List (List Char))
    (hturns : ∀ n ∈ turns, n ∈ names) (done : List (List Char)) :
    (turns.map String.ofList).foldlM (replaceName vars globals)
        (String.ofList (ps.flatMap (Stretch.shown (definedText? vars globals) done))) =
      .ok (String.ofList
        (ps.flatMap (Stretch.shown (definedText? vars globals) (turns.reverse ++ done)))) := by
  induction turns generalizing done with
  | nil => rfl
  | cons n turns ih =>
    rw [List.forall_mem_cons] at hturns
    obtain ⟨template, htemplate⟩ := Option.isSome_iff_exists.mp (hdefined n hturns.1)
    have htext : textOf (definedText? vars globals) n = template.toList := by
      rw [textOf, htemplate, Option.getD_some]
    have hread : Piece.readAll template = .ok (template.toList.map Piece.char) :=
      readFrom_of_isInert (htext ▸ hinert n hturns.1)
    have hpass : replaceFrom n (template.toList.map Piece.char) false 0
        (ps.flatMap (Stretch.shown (definedText? vars globals) done)) =
          ps.flatMap (Stretch.shown (definedText? vars globals) (n :: done)) := by
      rw [← htext]
      exact replaceFrom_shown hinert hscan (hsole n hturns.1) hrefs
    have hturn : replaceName vars globals
        (String.ofList (ps.flatMap (Stretch.shown (definedText? vars globals) done))) (String.ofList n) =
          .ok (String.ofList (ps.flatMap (Stretch.shown (definedText? vars globals) (n :: done)))) := by
      unfold replaceName replaceReference
      rw [htemplate]
      show (Piece.readAll template >>= _) = _
      rw [hread, Failure.ok_bind, String.toList_ofList, String.toList_ofList, hpass]
      rfl
    rw [List.map_cons, List.foldlM_cons, hturn, Failure.ok_bind, ih hturns.2, List.reverse_cons,
      List.append_assoc, List.singleton_append]

/-- The references of a text, as names and as texts. -/
theorem mem_references_iff {text : String} :
    String.ofList name ∈ references text ↔ name ∈ referencesFrom false text.toList := by
  unfold references
  rw [List.mem_map]
  constructor
  · rintro ⟨m, hm, heq⟩
    rw [← String.ofList_inj.mp heq]
    exact List.mem_eraseDups.mp hm
  · intro h
    exact ⟨name, List.mem_eraseDups.mpr h, rfl⟩

theorem flatMap_shown_nil (ps : List Stretch) :
    ps.flatMap (Stretch.shown value []) = ps.flatMap Stretch.source := by
  refine List.flatMap_congr fun p _ => ?_
  cases p with
  | char | pair => rfl
  | reference name =>
    rw [Stretch.shown, if_neg List.not_mem_nil]
    rfl

/-- **Substitution is one literal pass**, if the texts put in are inert and no reference is mistaken
    for another.  It succeeds, for any texts, exactly if each of them is a template. -/
theorem substitute_eq_onePass (text : String) (vars globals : Table String)
    (hdefined : ∀ name ∈ references text, (definedText? vars globals name).isSome = true) :
    ((∃ out, substitute text vars globals = .ok out) ↔
      ∀ name ∈ references text, ∀ value ∈ definedText? vars globals name,
        ∃ pieces, Piece.readAll value = .ok pieces) ∧
    ((∀ name ∈ references text, ∀ value ∈ definedText? vars globals name, isInert value.toList = true) →
      (∀ name ∈ references text, unmistaken name.toList false text.toList = true) →
      substitute text vars globals = .ok (onePass (definedText? vars globals) text)) := by
  refine ⟨?_, ?_⟩
  · rw [substitute_ok_iff]
    refine forall₂_congr fun name hname => ?_
    obtain ⟨value, hvalue⟩ := Option.isSome_iff_exists.mp (hdefined name hname)
    simp [hvalue]
  intro hinert hsole
  have hscan : Scan false text.toList (stretches text) := scan_stretchesFrom false 0 text.toList
  have hnames : ∀ m ∈ referencesFrom false text.toList,
      (definedText? vars globals (String.ofList m)).isSome = true ∧
      isInert (textOf (definedText? vars globals) m) = true ∧ unmistaken m false text.toList = true := by
    intro m hm
    have hmem : String.ofList m ∈ references text := mem_references_iff.mpr hm
    obtain ⟨value, hvalue⟩ := Option.isSome_iff_exists.mp (hdefined _ hmem)
    have hone := hsole _ hmem
    rw [String.toList_ofList] at hone
    refine ⟨hdefined _ hmem, ?_, hone⟩
    rw [textOf, hvalue]
    exact hinert _ hmem value hvalue
  have hrefs : ∀ m, .reference m ∈ stretches text → m ∈ referencesFrom false text.toList :=
    fun m hm => hscan.mem_referencesFrom hm
  have hturns := foldlM_replaceName (fun m hm => (hnames m hm).1) (fun m hm => (hnames m hm).2.1)
    (fun m hm => (hnames m hm).2.2) hscan hrefs (referencesFrom false text.toList).eraseDups
    (fun n hn => List.mem_eraseDups.mp hn) []
  rw [flatMap_shown_nil, hscan.flatMap_source, String.ofList_toList, List.append_nil] at hturns
  have hcollapse := replace_dollars_shown (fun m hm => (hnames m hm).2.1)
    (fun m hm => List.mem_reverse.mpr (List.mem_eraseDups.mpr hm)) hscan hrefs
  rw [substitute_eq, references, hturns, Failure.ok_bind]
  unfold Text.replace
  simp only [String.toList_ofList]
  exact congrArg (fun chars => Except.ok (String.ofList chars)) hcollapse

/-- Variables of a file, one of them with signs that do nothing where they stand. -/
def placeVars : Table String := .ofList [("prefix", "/opt/$o"), ("pc.dir", "/away")]

/-- A global variable that takes the place of one of them. -/
def placeGlobals : Table String := .ofList [("pc.dir", "C:\\-\\.")]

theorem substitute_eq_onePass_places :
    substitute "-L$\x7bprefix\x7d/lib $$\x7bx\x7d $\x7b $\x7bpc.dir\x7d$\x7bprefix\x7d" placeVars
      placeGlobals =
      .ok "-L/opt/$o/lib $\x7bx\x7d $\x7b C:\\-\\./opt/$o" := by
  rw [(substitute_eq_onePass _ placeVars placeGlobals (by decide +kernel)).2 (by decide +kernel)
    (by decide +kernel)]
  decide +kernel

/-- What `substitute` and one pass make of a text, if no variable is global. -/
def bothPasses (text : String) (vars : List (String × String)) : Except Failure String × String :=
  (substitute text (.ofList vars) ∅, onePass (definedText? (.ofList vars) ∅) text)

/-- Substitution is more than one pass: a text put in is read again, it loses a dollar sign and is
    refused for its backslash, and a dot is taken for another character. -/
theorem substitute_not_onePass :
    bothPasses "$\x7ba\x7d$\x7bb\x7d" [("a", "$\x7bb\x7d"), ("b", "x")] = (.ok "xx", "$\x7bb\x7dx") ∧
    bothPasses "$\x7ba\x7d" [("a", "$$x")] = (.ok "$x", "$$x") ∧
    bothPasses "$\x7ba\x7d" [("a", "C:\\dir")] = (.error .badTemplate, "C:\\dir") ∧
    bothPasses "$\x7ba.b\x7d $\x7baxb\x7d" [("a.b", "1"), ("axb", "2")] = (.ok "1 1", "1 2") := by
  decide +kernel

end BuildMeta.Pkg
