import BuildMeta.Text.Case

/-!
# Patterns

A pattern describes texts: characters of given sets, one after the other, in choices and repetitions.
Groups of a pattern can be looked at after a match, and a pattern may ask that what a group matched
comes again.
-/

namespace BuildMeta.Text

/-! ## Sets of characters -/

/-- A class of characters. -/
inductive CharKind where
  | digit
  | blank
  | word
deriving Repr, BEq, DecidableEq

namespace CharKind

/-- Whether a character is of a class; `ascii` leaves out those beyond ASCII. -/
def holds (kind : CharKind) (ascii : Bool) (c : Char) : Bool :=
  let within := match kind with
    | digit => isDecimal c
    | blank => isBlank c
    | word => isWord c
  if ascii then
    c.toNat < 128 && within && !(kind == blank && 28 ≤ c.toNat && c.toNat ≤ 31)
  else within

end CharKind

/-- A part of a set of characters. -/
inductive CharSpan where
  /-- The characters with codes between two bounds. -/
  | range (low high : Nat)
  /-- The characters of a class, or those outside it. -/
  | kind (kind : CharKind) (ascii inside : Bool)
deriving Repr, BEq, DecidableEq

/-- A character with its case taken away. -/
def foldCase (c : Char) : Char := (lowerChar [] c []).headD c

/-- Whether a character is in a part of a set; `folded` takes upper and lower case for the same. -/
def CharSpan.holds (folded : Bool) (c : Char) : CharSpan → Bool
  | range low high =>
    let within (c : Char) : Bool := low ≤ c.toNat && c.toNat ≤ high
    within c || (folded && (within (foldCase c) || (upperChar c == [(upperChar c).headD c] &&
      within ((upperChar c).headD c))))
  | kind k ascii inside => k.holds ascii c == inside

/-- A set of characters. -/
structure CharSet where
  /-- Whether the set has the characters outside the spans. -/
  outside : Bool := false
  /-- Whether upper and lower case are the same. -/
  folded : Bool := false
  spans : List CharSpan
deriving Repr, BEq, DecidableEq

namespace CharSet

/-- Whether a character is in a set. -/
def holds (s : CharSet) (c : Char) : Bool := s.spans.any (CharSpan.holds s.folded c) != s.outside

/-- The set of one character. -/
def single (folded : Bool) (n : Nat) : CharSet := { folded, spans := [.range n n] }

end CharSet

/-! ## Patterns -/

/-- A place in a text. -/
inductive Anchor where
  | textStart
  | textEnd
  | lineStart
  | lineEnd
  /-- The end of the text, or before a newline that ends it. -/
  | lastLineEnd
  /-- Between a character of a word and one that is not, or anywhere else. -/
  | wordEdge (ascii wanted : Bool)
deriving Repr, BEq, DecidableEq

/-- Which of its matches a repetition prefers. -/
inductive Greed where
  /-- The longest. -/
  | most
  /-- The shortest. -/
  | least
  /-- The longest, and no other. -/
  | all
deriving Repr, BEq, DecidableEq

/-- A pattern. -/
inductive Pattern where
  | empty
  /-- One character of a set. -/
  | one (set : CharSet)
  | anchor (a : Anchor)
  | seq (p q : Pattern)
  | either (p q : Pattern)
  /-- A number of matches between two bounds. -/
  | loop (low : Nat) (high : Option Nat) (greed : Greed) (p : Pattern)
  /-- A match that is kept under a number. -/
  | group (number : Nat) (p : Pattern)
  /-- The preferred match, and no other. -/
  | atomic (p : Pattern)
  /-- A match from here on, which is not used up, or that there is none. -/
  | ahead (wanted : Bool) (p : Pattern)
  /-- A match of the given length that ends here, or that there is none. -/
  | behind (length : Nat) (wanted : Bool) (p : Pattern)
  /-- What a group has matched, once more. -/
  | again (number : Nat) (folded : Bool)
  /-- One pattern if a group has matched, another if it has not. -/
  | given (number : Nat) (yes no : Pattern)
deriving Repr, BEq, DecidableEq, Inhabited

namespace Pattern

/-- Patterns one after the other. -/
def sequence (ps : List Pattern) : Pattern :=
  match ps with
  | [] => empty
  | p :: rest => rest.foldl seq p

/-- A pattern for a text as it stands. -/
def literal (s : String) : Pattern :=
  sequence (s.toList.map fun c => one (.single false c.toNat))

/-- Whether a pattern looks at what its groups have matched. -/
def looksBack : Pattern → Bool
  | empty | one _ | anchor _ => false
  | seq p q | either p q => p.looksBack || q.looksBack
  | loop _ _ _ p | group _ p | atomic p | ahead _ p | behind _ _ p => p.looksBack
  | again _ _ | given .. => true

/-- Whether a pattern has a group with a number, be it one that a match may pass by. -/
def hasGroup (n : Nat) : Pattern → Bool
  | empty | one _ | anchor _ | again _ _ => false
  | seq p q | either p q | given _ p q => p.hasGroup n || q.hasGroup n
  | loop _ _ _ p | atomic p | ahead _ p | behind _ _ p => p.hasGroup n
  | group number p => number == n || p.hasGroup n

/-- The least and the greatest length of a match; there may be no greatest. -/
abbrev Width := Nat × Option Nat

/-- The sum of two greatest lengths. -/
def sumOf (a b : Option Nat) : Option Nat := do return (← a) + (← b)

/-- The larger of two greatest lengths. -/
def largerOf (a b : Option Nat) : Option Nat := do
  let a ← a
  let b ← b
  return if a < b then b else a

/-- The width of a pattern, given the widths of groups. -/
def width (groups : List (Nat × Width)) : Pattern → Width
  | empty | anchor _ | ahead .. | behind .. => (0, some 0)
  | one _ => (1, some 1)
  | seq p q =>
    let a := p.width groups
    let b := q.width groups
    (a.1 + b.1, sumOf a.2 b.2)
  | either p q | given _ p q =>
    let a := p.width groups
    let b := q.width groups
    (if a.1 < b.1 then a.1 else b.1, largerOf a.2 b.2)
  | loop low high _ p =>
    let a := p.width groups
    (a.1 * low, match high with
      | some n => a.2.map (· * n)
      | none => if a.2 == some 0 then some 0 else none)
  | group _ p | atomic p => p.width groups
  | again n _ => (groups.lookup n).getD (0, none)

end Pattern

end BuildMeta.Text
