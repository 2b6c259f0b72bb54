import BuildMeta.Text.Pattern.Reader

/-!
# `Proofs.Text.PatternReading` — what the text of a pattern is read as

One equation for each kind of sign that a reader of pieces meets, without flags.  A text of
characters without a meaning of their own is read as those characters (`pieces_plain_run`).  A group
or a choice is read as its pieces are (`choices_of_pieces`, `pieces_numbered`, `pieces_unnumbered`).
-/

namespace BuildMeta.Text.Pattern

/-- Any character of a line. -/
def inLine : CharSet := { outside := true, spans := [.range 10 10] }

/-- The set that a character without a meaning of its own stands for.  A dot stands for more than
    itself. -/
def plainSet (c : Char) : CharSet := if c = '.' then inLine else .single false c.toNat

/-- The characters of words, dots and hyphens. -/
def IsPlain (c : Char) : Prop := isWord c = true ∨ c = '.' ∨ c = '-'

/-- The same state of a reader, with this text still to be read. -/
def Reading.facing (s : Reading) (rest : List Char) : Reading := { s with rest }

namespace Reader

/-! ## Signs -/

/-- The characters that stand for more than themselves. -/
def signs : List Char := ['|', ')', '?', '*', '+', '\x7b', '\\', '[', '.', '^', '$', '(']

variable {top : Bool} {n : Nat} {done : List Piece} {s s' : Reading} {rest : List Char} {c : Char}
  {p : Pattern}

theorem isWord_of_mem_signs (h : c ∈ signs) : isWord c = false := by
  have hsigns : signs.all (fun d => !isWord d) = true := rfl
  simpa using List.all_eq_true.mp hsigns c h

theorem bounds?_of_not_mem_signs (h : c ∉ signs) : bounds? c = pure none := by
  unfold bounds?
  split
  · exact absurd (by decide) h
  · exact absurd (by decide) h
  · exact absurd (by decide) h
  · exact absurd (by decide) h
  · rfl

/-- A character without a meaning stands for itself. -/
theorem pieces_char (h : c ∉ signs) :
    (pieces top {} (n + 1) done).run (s.facing (c :: rest)) =
      (pieces top {} n ({ pattern := one (.single false c.toNat) } :: done)).run (s.facing rest) := by
  have hbar : (c == '|' || c == ')') = false := by
    simp only [signs, List.mem_cons, not_or] at h
    simp [h]
  have hpeek : peek.run (s.facing (c :: rest)) = .ok (some c, s.facing (c :: rest)) := rfl
  have hskip : (skip 1).run (s.facing (c :: rest)) = .ok ((), s.facing rest) := rfl
  rw [pieces, StateT.run_bind, hpeek]
  show StateT.run (if (c == '|' || c == ')') = true then _ else _) _ = _
  simp only [hbar, bounds?_of_not_mem_signs h, Bool.false_eq_true, if_false, StateT.run_bind, hskip,
    Bool.false_and, pure_bind, Failure.ok_bind]
  split
  · exact absurd (by decide) h
  · exact absurd (by decide) h
  · exact absurd (by decide) h
  · exact absurd (by decide) h
  · exact absurd (by decide) h
  · exact absurd (by decide) h
  · rfl

theorem pieces_dot :
    (pieces top {} (n + 1) done).run (s.facing ('.' :: rest)) =
      (pieces top {} n ({ pattern := one inLine } :: done)).run (s.facing rest) := by
  rw [pieces]
  rfl

/-- The end of a group ends its pieces. -/
theorem pieces_stop :
    (pieces top {} (n + 1) done).run (s.facing (')' :: rest)) = .ok (done, s.facing (')' :: rest)) := by
  rw [pieces]
  rfl

theorem pieces_nil : (pieces top {} (n + 1) done).run (s.facing []) = .ok (done, s.facing []) := by
  rw [pieces]
  rfl

theorem accept_of_head?_ne (h : rest.head? ≠ some c) :
    (accept c).run (s.facing rest) = .ok (false, s.facing rest) := by
  have hpeek : peek.run (s.facing rest) = .ok (rest.head?, s.facing rest) := rfl
  rw [accept, StateT.run_bind, hpeek, Failure.ok_bind, if_neg]
  · rfl
  · simpa using h

/-- A star repeats the last piece, as often as it can if no sign follows that says otherwise. -/
theorem pieces_star (hleast : rest.head? ≠ some '?') (hall : rest.head? ≠ some '+') :
    (pieces top {} (n + 1) ({ pattern := p } :: done)).run (s.facing ('*' :: rest)) =
      (pieces top {} n ({ pattern := loop 0 none .most p, fixed := true } :: done)).run
        (s.facing rest) := by
  have hgreed : greed.run (s.facing rest) = .ok (.most, s.facing rest) := by
    rw [greed, StateT.run_bind, accept_of_head?_ne hleast, Failure.ok_bind]
    show (accept '+' >>= _).run (s.facing rest) = _
    rw [StateT.run_bind, accept_of_head?_ne hall]
    rfl
  have hrepeat : (repeatLast 0 none ({ pattern := p } :: done)).run (s.facing rest) =
      .ok ({ pattern := loop 0 none .most p, fixed := true } :: done, s.facing rest) := by
    show (greed >>= _).run (s.facing rest) = _
    rw [StateT.run_bind, hgreed]
    rfl
  rw [pieces]
  show ((repeatLast 0 none ({ pattern := p } :: done)) >>= _).run (s.facing rest) = _
  rw [StateT.run_bind, hrepeat]
  rfl

/-! ## Groups -/

/-- A choice with one branch. -/
theorem choices_of_pieces (h : (pieces top {} n []).run s = .ok (done, s'.facing rest))
    (hbar : rest.head? ≠ some '|') :
    (choices top {} (n + 1)).run s = .ok (sequence (done.reverse.map (·.pattern)), s'.facing rest) := by
  rw [choices, StateT.run_bind, h, Failure.ok_bind]
  show (accept '|' >>= _).run (s'.facing rest) = _
  rw [StateT.run_bind, accept_of_head?_ne hbar]
  rfl

/-- A group is closed under its number. -/
theorem groupFrom_numbered {k : Nat}
    (h : (choices false {} n).run s = .ok (p, s'.facing (')' :: rest))) :
    (groupFrom {} (n + 1) (.numbered k)).run s =
      .ok (group k p, { s' with closed := (k, p.width s'.closed) :: s'.closed }.facing rest) := by
  rw [groupFrom]
  show (choices false {} n >>= _).run _ = _
  rw [StateT.run_bind, h]
  rfl

theorem groupFrom_plain (h : (choices false {} n).run s = .ok (p, s'.facing (')' :: rest))) :
    (groupFrom {} (n + 1) (.plain {})).run s = .ok (p, s'.facing rest) := by
  rw [groupFrom]
  show (choices false {} n >>= _).run _ = _
  rw [StateT.run_bind, h]
  rfl

/-- A group is a piece, whether it is kept or not. -/
theorem pieces_open {o : Opening} {s₁ : Reading} (ho : o = .plain {} ∨ ∃ k, o = .numbered k)
    (hopening : (opening {} (top && done.isEmpty)).run (s.facing rest) = .ok (o, s₁))
    (hgroup : (groupFrom {} n o).run s₁ = .ok (p, s')) :
    (pieces top {} (n + 1) done).run (s.facing ('(' :: rest)) =
      (pieces top {} n ({ pattern := p } :: done)).run s' := by
  have hpeek : peek.run (s.facing ('(' :: rest)) = .ok (some '(', s.facing ('(' :: rest)) := rfl
  have hskip : (skip 1).run (s.facing ('(' :: rest)) = .ok ((), s.facing rest) := rfl
  have hbar : ('(' == '|' || '(' == ')') = false := rfl
  have hbounds : bounds? '(' = pure none := rfl
  rw [pieces]
  rcases ho with rfl | ⟨k, rfl⟩
  · simp only [StateT.run_bind, hpeek, hbar, hbounds, Bool.false_eq_true, if_false, hskip,
      Bool.false_and, pure_bind, Failure.ok_bind, hopening, hgroup]
  · simp only [StateT.run_bind, hpeek, hbar, hbounds, Bool.false_eq_true, if_false, hskip,
      Bool.false_and, pure_bind, Failure.ok_bind, hopening, hgroup]

/-- A group that begins with no question mark is kept under the next number. -/
theorem pieces_numbered (hopen : rest.head? ≠ some '?')
    (h : (groupFrom {} n (.numbered s.next)).run ({ s with next := s.next + 1 }.facing rest)
      = .ok (p, s')) :
    (pieces top {} (n + 1) done).run (s.facing ('(' :: rest)) =
      (pieces top {} n ({ pattern := p } :: done)).run s' := by
  refine pieces_open (Or.inr ⟨s.next, rfl⟩) ?_ h
  rw [opening, StateT.run_bind, accept_of_head?_ne hopen]
  rfl

/-- A group that is not kept. -/
theorem pieces_unnumbered (h : (groupFrom {} n (.plain {})).run (s.facing rest) = .ok (p, s')) :
    (pieces top {} (n + 1) done).run (s.facing ('(' :: '?' :: ':' :: rest)) =
      (pieces top {} n ({ pattern := p } :: done)).run s' :=
  pieces_open (Or.inl rfl) rfl h

/-! ## Plain text -/

/-- A plain character is read as the set that it stands for. -/
theorem pieces_plain (h : IsPlain c) :
    (pieces top {} (n + 1) done).run (s.facing (c :: rest)) =
      (pieces top {} n ({ pattern := one (plainSet c) } :: done)).run (s.facing rest) := by
  by_cases hdot : c = '.'
  · rw [hdot]
    exact pieces_dot
  · rw [plainSet, if_neg hdot]
    refine pieces_char ?_
    intro hsign
    rcases h with hword | hc | rfl
    · rw [isWord_of_mem_signs hsign] at hword
      cases hword
    · exact hdot hc
    · exact absurd hsign (by decide)

/-- **Plain text is read character by character.** -/
theorem pieces_plain_run {cs : List Char} (h : ∀ c ∈ cs, IsPlain c) :
    (pieces top {} (cs.length + n) done).run (s.facing (cs ++ rest)) =
      (pieces top {} n ((cs.map fun c => { pattern := one (plainSet c) }).reverse ++ done)).run
        (s.facing rest) := by
  induction cs generalizing done with
  | nil =>
    rw [List.length_nil, Nat.zero_add, List.nil_append, List.map_nil, List.reverse_nil, List.nil_append]
  | cons c cs ih =>
    have hlength : (c :: cs).length + n = cs.length + n + 1 := by
      rw [List.length_cons]
      omega
    rw [hlength, List.cons_append, pieces_plain (h c List.mem_cons_self),
      ih fun d hd => h d (List.mem_cons_of_mem _ hd), List.map_cons, List.reverse_cons,
      List.append_assoc, List.singleton_append]

end Reader

end BuildMeta.Text.Pattern
