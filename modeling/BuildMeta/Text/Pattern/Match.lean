import BuildMeta.Text.Pattern.Basic

/-!
# Matching patterns

A match goes through a pattern from left to right.  At each choice the preferred way is tried first,
and another one if what follows does not match.  All places at which a match can end are therefore
listed, the preferred first.  Two ways that lead to the same place go on alike, so that the later one is
left out, unless the pattern looks at what its groups have matched.
-/

namespace BuildMeta.Text

/-- A place in a text that a match has reached. -/
structure Place where
  pos : Nat
  /-- The groups that have matched, each with its number, start and end. -/
  groups : List (Nat × Nat × Nat) := []
deriving Repr, BEq, DecidableEq, Inhabited

namespace Pattern

/-- The positions reached and the places found so far, the last one first. -/
structure Visited where
  seen : Array Bool
  found : List Place := []

/-- Visits one more place, which is left out if its position was reached before. -/
def Visited.visit (v : Visited) (p : Place) : Visited :=
  if v.seen[p.pos]?.getD true then v
  else { seen := v.seen.setIfInBounds p.pos true, found := p :: v.found }

/-- Leaves out the places that were reached before. -/
def distinct (size : Nat) (places : List Place) : List Place :=
  match places with
  | [] | [_] => places
  | _ => (places.foldl Visited.visit { seen := Array.replicate (size + 1) false }).found.reverse

/-- Whether a position is a given place of a text. -/
def isAt (text : Array Char) (pos : Nat) : Anchor → Bool
  | .textStart => pos == 0
  | .textEnd => pos == text.size
  | .lineStart => pos == 0 || text[pos - 1]? == some '\n'
  | .lineEnd => pos == text.size || text[pos]? == some '\n'
  | .lastLineEnd => pos == text.size || (pos + 1 == text.size && text[pos]? == some '\n')
  | .wordEdge ascii wanted =>
    let before := pos != 0 && text[pos - 1]?.any (CharKind.word.holds ascii)
    let after := text[pos]?.any (CharKind.word.holds ascii)
    text.size != 0 && (before != after) == wanted

/-- Whether the text between two positions stands at a third as well. -/
def comesAgain (text : Array Char) (folded : Bool) (start stop pos : Nat) : Bool :=
  (List.range (stop - start)).all fun i =>
    match text[start + i]?, text[pos + i]? with
    | some a, some b => a == b || (folded && foldCase a == foldCase b)
    | _, _ => false

/-- The places after a number of matches, the preferred first, with other places after them.  `last` is
where the match before began: a match that has not moved on is the last one. -/
def repeats (step : Place → List Place) (low : Nat) (high : Option Nat) (shortFirst : Bool) :
    Nat → Nat → Option Nat → Place → List Place → List Place
  | 0, _, _, _, others => others
  | fuel + 1, count, last, p, others =>
    if count < low then
      (step p).foldr (fun q others =>
        repeats step low high shortFirst fuel (count + 1) last q others) others
    else
      let more (others : List Place) : List Place :=
        if high.any (· ≤ count) || last == some p.pos then others
        else (step p).foldr (fun q others =>
          repeats step low high shortFirst fuel (count + 1) (some p.pos) q others) others
      if shortFirst then p :: more others else more (p :: others)

/-- The place after as many matches as there are, each the preferred one. -/
def holdOn (step : Place → List Place) (low : Nat) (high : Option Nat) :
    Nat → Nat → Option Nat → Place → Option Place
  | 0, _, _, p => some p
  | fuel + 1, count, last, p =>
    let stop := count ≥ low && (high.any (· ≤ count) || last == some p.pos)
    if stop then some p
    else match (step p).head? with
      | some q => holdOn step low high fuel (count + 1) (if count < low then last else some p.pos) q
      | none => if count < low then none else some p

/-- The places at which a match of a pattern can end, the preferred first. -/
def ends (text : Array Char) (exact : Bool) : Pattern → Place → List Place
  | empty, x => [x]
  | one set, x => if text[x.pos]?.any set.holds then [{ x with pos := x.pos + 1 }] else []
  | anchor a, x => if isAt text x.pos a then [x] else []
  | seq p q, x =>
    let places := (ends text exact p x).flatMap (ends text exact q)
    if exact then places else distinct text.size places
  | either p q, x =>
    let places := ends text exact p x ++ ends text exact q x
    if exact then places else distinct text.size places
  | loop low high greed p, x =>
    let fuel := low + text.size + 3
    match greed with
    | .all => (holdOn (ends text exact p) low high fuel 0 none x).toList
    | _ =>
      let places := repeats (ends text exact p) low high (greed == .least) fuel 0 none x []
      if exact then places else distinct text.size places
  | group n p, x => (ends text exact p x).map fun y =>
      { y with groups := (n, x.pos, y.pos) :: y.groups.filter (·.1 != n) }
  | atomic p, x => (ends text exact p x).head?.toList
  | ahead wanted p, x =>
    match (ends text exact p x).head? with
    | some y => if wanted then [{ y with pos := x.pos }] else []
    | none => if wanted then [] else [x]
  | behind length wanted p, x =>
    let found := if x.pos < length then none
      else (ends text exact p { x with pos := x.pos - length }).find? (·.pos == x.pos)
    match found with
    | some y => if wanted then [y] else []
    | none => if wanted then [] else [x]
  | again n folded, x =>
    match x.groups.lookup n with
    | some (start, stop) =>
      if comesAgain text folded start stop x.pos then [{ x with pos := x.pos + (stop - start) }]
      else []
    | none => []
  | given n yes no, x =>
    if (x.groups.lookup n).isSome then ends text exact yes x else ends text exact no x

/-- A match of a pattern in a text. -/
structure Found where
  text : Array Char
  start : Nat
  stop : Nat
  groups : List (Nat × Nat × Nat)
deriving Repr, Inhabited

/-- What a group has matched. -/
def Found.group? (m : Found) (n : Nat) : Option String :=
  (m.groups.lookup n).map fun (start, stop) => String.ofList (m.text.extract start stop).toList

/-- The preferred match that begins at a position. -/
def matchAt? (p : Pattern) (text : Array Char) (pos : Nat) : Option Found :=
  (ends text p.looksBack p { pos }).head?.map fun x =>
    { text, start := pos, stop := x.pos, groups := x.groups }

/-- The preferred match at the front of a text. -/
def matchFront? (p : Pattern) (s : String) : Option Found := p.matchAt? s.toList.toArray 0

/-- The first match in a text. -/
def search? (p : Pattern) (s : String) : Option Found :=
  let text := s.toList.toArray
  (List.range (text.size + 1)).findSome? (p.matchAt? text)

end Pattern

end BuildMeta.Text
