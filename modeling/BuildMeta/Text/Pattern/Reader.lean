import BuildMeta.Failure
import BuildMeta.Text.Integer
import BuildMeta.Text.Pattern.Basic

/-!
# Reading patterns

The text of a pattern: characters stand for themselves, but for the signs of choices, repetitions, sets,
groups and places, and what begins with a backslash.  Flags at the front of a pattern or of a group
change what its signs mean.
-/

namespace BuildMeta.Text.Pattern

/-- What the signs of a pattern mean. -/
structure Flags where
  /-- Upper and lower case are the same. -/
  folded : Bool := false
  /-- The start and end of every line are found, not only those of the text. -/
  lines : Bool := false
  /-- A dot stands for a newline as well. -/
  dotAll : Bool := false
  /-- White space and comments have no meaning. -/
  spaced : Bool := false
  /-- Classes hold characters of ASCII only. -/
  ascii : Bool := false
deriving Repr, BEq, DecidableEq, Inhabited

/-- The state of a reader. -/
structure Reading where
  /-- What is still to be read. -/
  rest : List Char
  flags : Flags
  /-- The number of the next group. -/
  next : Nat := 1
  /-- The names of groups. -/
  names : List (String × Nat) := []
  /-- The groups that are closed, with their widths. -/
  closed : List (Nat × Width) := []
  /-- Inside a look behind, the first group that belongs to it. -/
  barrier : Option Nat := none
  /-- The groups that conditions ask for. -/
  asked : List Nat := []
  /-- Whether a look behind has matches of different lengths. -/
  uneven : Bool := false
deriving Inhabited

/-- A reader. -/
abbrev Reader := StateT Reading (Except Failure)

namespace Reader

/-- A pattern that cannot be read. -/
def malformed {α : Type} : Reader α := throw .badTemplate

/-! ## Characters -/

/-- The next character, which stays. -/
def peek : Reader (Option Char) := do return (← get).rest.head?

/-- Passes over characters. -/
def skip (n : Nat) : Reader Unit := modify fun s => { s with rest := s.rest.drop n }

/-- Reads the next character; there has to be one. -/
def char : Reader Char := do
  match (← get).rest with
  | [] => malformed
  | c :: rest =>
    modify fun s => { s with rest }
    return c

/-- Reads a character if it comes next. -/
def accept (c : Char) : Reader Bool := do
  if (← peek) == some c then
    skip 1
    return true
  return false

/-- Reads a character that has to come next. -/
def expect (c : Char) : Reader Unit := do
  if !(← accept c) then malformed

/-- Reads the longest run of characters of a class, up to a number of them. -/
def runOf (limit : Nat) (p : Char → Bool) : Reader (List Char) := do
  let taken := ((← get).rest.take limit).takeWhile p
  skip taken.length
  return taken

/-- Reads a text up to a character, which is read too; the text may not be empty. -/
def upTo (c : Char) : Reader String := do
  let rest := (← get).rest
  let taken := rest.takeWhile (· != c)
  if taken.isEmpty || taken.length == rest.length then malformed
  skip (taken.length + 1)
  return String.ofList taken

/-! ## What begins with a backslash -/

/-- Whether a character is a decimal digit of ASCII. -/
def isDigit (c : Char) : Bool := '0' ≤ c && c ≤ '9'

/-- Whether a character is an octal digit. -/
def isOctal (c : Char) : Bool := '0' ≤ c && c ≤ '7'

/-- Whether a character is a hexadecimal digit. -/
def isHex (c : Char) : Bool := isDigit c || ('a' ≤ c && c ≤ 'f') || ('A' ≤ c && c ≤ 'F')

/-- The number that digits write in a base. -/
def numberOf (base : Nat) (digits : List Char) : Nat :=
  ofDigits base (digits.map fun c => (digitValue? c).getD 0)

/-- The code of the character that a letter stands for. -/
def letterCode? : Char → Option Nat
  | 'a' => some 7
  | 'b' => some 8
  | 'f' => some 12
  | 'n' => some 10
  | 'r' => some 13
  | 't' => some 9
  | 'v' => some 11
  | '\\' => some 92
  | _ => none

/-- The class that a letter stands for; a capital stands for the characters outside it. -/
def kindOf? (ascii : Bool) : Char → Option CharSpan
  | 'd' => some (.kind .digit ascii true)
  | 'D' => some (.kind .digit ascii false)
  | 's' => some (.kind .blank ascii true)
  | 'S' => some (.kind .blank ascii false)
  | 'w' => some (.kind .word ascii true)
  | 'W' => some (.kind .word ascii false)
  | _ => none

/-- The place that a letter stands for. -/
def placeOf? (ascii : Bool) : Char → Option Anchor
  | 'A' => some .textStart
  | 'Z' => some .textEnd
  | 'b' => some (.wordEdge ascii true)
  | 'B' => some (.wordEdge ascii false)
  | _ => none

/-- Reads a code of so many hexadecimal digits. -/
def hexCode (count : Nat) : Reader Nat := do
  let digits ← runOf count isHex
  if digits.length != count then malformed
  let n := numberOf 16 digits
  if 0x10ffff < n then malformed
  return n

/-- Reads the code of a character after its backslash and letter. -/
def code (c : Char) : Reader Nat := do
  match c with
  | 'x' => hexCode 2
  | 'u' => hexCode 4
  | 'U' => hexCode 8
  | _ => if c.isAlpha || isDigit c then malformed else return c.toNat

/-- An octal code, which has a bound. -/
def octalCode (digits : List Char) : Reader Nat := do
  let n := numberOf 8 digits
  if 0o377 < n then malformed
  return n

/-- Whether a group is closed. -/
def isClosed (n : Nat) : Reader Bool := do return ((← get).closed.lookup n).isSome

/-- A look behind may not refer to groups of its own. -/
def checkBarrier (n : Nat) : Reader Unit := do
  match (← get).barrier with
  | none => return
  | some first => if !(← isClosed n) || first ≤ n then malformed

/-- A group that a pattern refers to. -/
def reference (folded : Bool) (n : Nat) : Reader Pattern := do
  if !(← isClosed n) then malformed
  checkBarrier n
  return .again n folded

/-- Reads a group number, or an octal code of three digits. -/
def numbered (folded : Bool) (c : Char) : Reader Pattern := do
  if c == '0' then
    return .one (.single folded (numberOf 8 (← runOf 2 isOctal)))
  let second ← runOf 1 isDigit
  if isOctal c && !second.isEmpty && second.all isOctal then
    let third ← runOf 1 isOctal
    if !third.isEmpty then return .one (.single folded (← octalCode (c :: second ++ third)))
  reference folded (numberOf 10 (c :: second))

/-- Reads what follows a backslash outside a set. -/
def escape (f : Flags) : Reader (Pattern × Bool) := do
  let c ← char
  match placeOf? f.ascii c, kindOf? f.ascii c, letterCode? c with
  | some a, _, _ => return (.anchor a, true)
  | _, some span, _ => return (.one { spans := [span] }, false)
  | _, _, some n => return (.one (.single f.folded n), false)
  | _, _, _ =>
    if isDigit c then return (← numbered f.folded c, false)
    return (.one (.single f.folded (← code c)), false)

/-! ## Sets -/

/-- Reads one member of a set after its first character. -/
def setMember (f : Flags) (c : Char) : Reader CharSpan := do
  if c != '\\' then return .range c.toNat c.toNat
  let e ← char
  match kindOf? f.ascii e, letterCode? e with
  | some span, _ => return span
  | _, some n => return .range n n
  | _, _ =>
    let n ← if isOctal e then octalCode (e :: (← runOf 2 isOctal)) else code e
    return .range n n

/-- The range between two members, each of which is one character. -/
def rangeOf : CharSpan → CharSpan → Reader CharSpan
  | .range low _, .range high _ => if high < low then malformed else return .range low high
  | _, _ => malformed

/-- Reads the members of a set up to its closing bracket, after those already read.  Every member uses
one unit of fuel. -/
def setMembers (f : Flags) : Nat → List CharSpan → Reader (List CharSpan)
  | 0, _ => malformed
  | fuel + 1, done => do
    let c ← char
    if c == ']' && !done.isEmpty then return done
    let first ← setMember f c
    if !(← accept '-') then return ← setMembers f fuel (done ++ [first])
    let c ← char
    if c == ']' then return done ++ [first, .range '-'.toNat '-'.toNat]
    setMembers f fuel (done ++ [← rangeOf first (← setMember f c)])

/-- Reads a set after its opening bracket. -/
def charSet (f : Flags) : Reader Pattern := do
  let outside ← accept '^'
  let spans ← setMembers f ((← get).rest.length + 1) []
  return .one { outside, folded := f.folded, spans }

/-! ## Repetitions -/

/-- The first number that is too large for a repetition. -/
def repetitionBound : Nat := 4294967295

/-- The number of a bound of a repetition.  A pattern that ends in a lone backslash after it cannot be
read, whatever the number is. -/
def bound (digits : List Char) : Reader Nat := do
  let n := numberOf 10 digits
  if repetitionBound ≤ n then
    if (← get).rest == ['\\'] then malformed
    throw .tooLarge
  return n

/-- Reads the bounds of a repetition between braces, if they are bounds. -/
def braces? : Reader (Option (Nat × Option Nat)) := do
  let start := (← get).rest
  if start.head? == some '\x7d' then return none
  let low ← runOf start.length isDigit
  let high ← if ← accept ',' then runOf start.length isDigit else pure low
  if !(← accept '\x7d') then
    modify fun s => { s with rest := start }
    return none
  let least ← if low.isEmpty then pure 0 else bound low
  if high.isEmpty then return some (least, none)
  let most ← bound high
  if most < least then malformed
  return some (least, some most)

/-- The bounds that a sign of repetition stands for, if it is one. -/
def bounds? (c : Char) : Reader (Option (Nat × Option Nat)) := do
  match c with
  | '?' => return some (0, some 1)
  | '*' => return some (0, none)
  | '+' => return some (1, none)
  | '\x7b' => braces?
  | _ => return none

/-- Reads the sign after a repetition that says which match it prefers. -/
def greed : Reader Greed := do
  if ← accept '?' then return .least
  if ← accept '+' then return .all
  return .most

/-! ## Groups -/

/-- A part of a pattern, and whether it can be repeated. -/
structure Piece where
  pattern : Pattern
  fixed : Bool := false
deriving Inhabited

/-- Repeats the last of the pieces, which stand in reverse order. -/
def repeatLast (low : Nat) (high : Option Nat) : List Piece → Reader (List Piece)
  | [] => malformed
  | piece :: done => do
    if piece.fixed then malformed
    return { pattern := .loop low high (← greed) piece.pattern, fixed := true } :: done

/-- Whether a name can name a group. -/
def isName (s : String) : Bool :=
  match s.toList with
  | [] => false
  | c :: rest => isWord c && !isDecimal c && rest.all isWord

/-- Opens a group, with its name if it has one. -/
def openGroup (name : Option String) : Reader Nat := do
  let s ← get
  let names ← match name with
    | none => pure s.names
    | some name => do
      if !isName name || (s.names.lookup name).isSome then malformed
      pure ((name, s.next) :: s.names)
  set { s with next := s.next + 1, names }
  return s.next

/-- Closes a group. -/
def closeGroup (n : Nat) (p : Pattern) : Reader Unit :=
  modify fun s => { s with closed := (n, p.width s.closed) :: s.closed }

/-- The group of a name. -/
def named (name : String) : Reader Nat := do
  if !isName name then malformed
  match (← get).names.lookup name with
  | some n => return n
  | none => malformed

/-- The group that a condition asks for, by name or number. -/
def asked (name : String) : Reader Nat := do
  if isName name then named name
  else match integer? name with
    | some n =>
      if n ≤ 0 then malformed
      modify fun s => { s with asked := n.toNat :: s.asked }
      return n.toNat
    | none => malformed

/-- Passes over a comment up to its closing bracket. -/
def comment : Nat → Reader Unit
  | 0 => malformed
  | fuel + 1 => do
    match ← char with
    | ')' => return
    | '\\' => skip 1; comment fuel
    | _ => comment fuel

/-- The letters of flags. -/
def flagLetters : List Char := ['i', 'm', 's', 'x', 'a', 'u']

/-- Turns a flag on or off. -/
def setFlag (on : Bool) (f : Flags) : Char → Flags
  | 'i' => { f with folded := on }
  | 'm' => { f with lines := on }
  | 's' => { f with dotAll := on }
  | 'x' => { f with spaced := on }
  | 'a' => { f with ascii := on }
  | _ => { f with ascii := !on }

/-- Reads flags that are turned on for a group, those that are turned off after a dash, and the sign
after them. -/
def flagGroup (first : Char) : Reader (List Char × List Char × Char) := do
  let on ← if first == '-' then pure []
    else do pure (first :: (← runOf (← get).rest.length flagLetters.contains))
  let sign ← if first == '-' then pure '-' else char
  if on.contains 'a' && on.contains 'u' then malformed
  match sign with
  | ')' | ':' => return (on, [], sign)
  | '-' =>
    let off ← runOf (← get).rest.length flagLetters.contains
    expect ':'
    if off.isEmpty || off.any (['a', 'u'].contains ·) || off.any on.contains then malformed
    return (on, off, ':')
  | _ => malformed

/-- What the signs at the start of a group say of it. -/
inductive Opening where
  /-- Nothing is left of it. -/
  | nothing
  /-- A pattern without a group of its own. -/
  | done (p : Pattern)
  /-- A group under a number. -/
  | numbered (n : Nat)
  /-- A group that is not kept, with its flags. -/
  | plain (f : Flags)
  | atomic
  | ahead (wanted : Bool)
  | behind (wanted : Bool)
  | condition (n : Nat)
deriving Inhabited

/-- Reads the signs at the start of a group.  Flags for all that follows may stand only where `atStart`
holds. -/
def opening (f : Flags) (atStart : Bool) : Reader Opening := do
  if !(← accept '?') then return .numbered (← openGroup none)
  match ← char with
  | 'P' =>
    if ← accept '<' then return .numbered (← openGroup (some (← upTo '>')))
    expect '='
    return .done (← reference f.folded (← named (← upTo ')')))
  | ':' => return .plain f
  | '#' =>
    comment ((← get).rest.length + 1)
    return .nothing
  | '=' => return .ahead true
  | '!' => return .ahead false
  | '<' =>
    if ← accept '=' then return .behind true
    expect '!'
    return .behind false
  | '(' =>
    let n ← asked (← upTo ')')
    checkBarrier n
    return .condition n
  | '>' => return .atomic
  | c =>
    if !(c == '-' || flagLetters.contains c) then malformed
    let (on, off, sign) ← flagGroup c
    let flags := off.foldl (setFlag false) (on.foldl (setFlag true) f)
    if sign == ':' then return .plain flags
    if !atStart then malformed
    modify fun s => { s with flags }
    return .nothing

/-! ## Sequences and choices -/

/-- Passes over the rest of a line. -/
def restOfLine : Reader Unit := do
  let n := ((← get).rest.takeWhile (· != '\n')).length
  skip (n + 1)

mutual

/-- Reads a sequence up to the end of its choice or group; its pieces stand in reverse order.  `top` says
that it is the first sequence of the whole pattern.  Every step uses one unit of fuel. -/
def pieces (top : Bool) (f : Flags) : Nat → List Piece → Reader (List Piece)
  | 0, _ => malformed
  | fuel + 1, done => do
    let some c ← peek | return done
    if c == '|' || c == ')' then return done
    skip 1
    if f.spaced && [' ', '\t', '\n', '\r', '\x0b', '\x0c'].contains c then
      return ← pieces top f fuel done
    if f.spaced && c == '#' then
      restOfLine
      return ← pieces top f fuel done
    if let some (low, high) ← bounds? c then
      return ← pieces top f fuel (← repeatLast low high done)
    match c with
    | '\\' =>
      let (pattern, fixed) ← escape f
      pieces top f fuel ({ pattern, fixed } :: done)
    | '[' => pieces top f fuel ({ pattern := ← charSet f } :: done)
    | '.' =>
      let spans := if f.dotAll then [] else [.range 10 10]
      pieces top f fuel ({ pattern := .one { outside := true, spans } } :: done)
    | '^' =>
      let a := if f.lines then .lineStart else .textStart
      pieces top f fuel ({ pattern := .anchor a, fixed := true } :: done)
    | '$' =>
      let a := if f.lines then .lineEnd else .lastLineEnd
      pieces top f fuel ({ pattern := .anchor a, fixed := true } :: done)
    | '(' =>
      let opening ← opening f (top && done.isEmpty)
      match opening with
      | .nothing =>
        let s ← get
        pieces top (if top && done.isEmpty then s.flags else f) fuel done
      | .done pattern => pieces top f fuel ({ pattern } :: done)
      | opening =>
        let pattern ← groupFrom f fuel opening
        pieces top f fuel ({ pattern } :: done)
    | c => pieces top f fuel ({ pattern := .one (.single f.folded c.toNat) } :: done)

/-- Reads the rest of a group after its opening. -/
def groupFrom (f : Flags) : Nat → Opening → Reader Pattern
  | 0, _ => malformed
  | fuel + 1, opening => do
    match opening with
    | .nothing => return .empty
    | .done p => return p
    | .numbered n =>
      let p ← choices false f fuel
      expect ')'
      closeGroup n p
      return .group n p
    | .plain flags =>
      let p ← choices false flags fuel
      expect ')'
      return p
    | .atomic =>
      let p ← choices false f fuel
      expect ')'
      return .atomic p
    | .ahead wanted =>
      let p ← choices false f fuel
      expect ')'
      return .ahead wanted p
    | .behind wanted =>
      let outer := (← get).barrier
      modify fun s => { s with barrier := outer <|> some s.next }
      let p ← choices false f fuel
      modify fun s => { s with barrier := outer }
      expect ')'
      let (low, high) := p.width (← get).closed
      if high != some low then modify fun s => { s with uneven := true }
      return .behind low wanted p
    | .condition n =>
      let yes ← pieces false f fuel []
      let no ← if ← accept '|' then pieces false f fuel [] else pure []
      expect ')'
      return .given n (sequence (yes.reverse.map (·.pattern)))
        (sequence (no.reverse.map (·.pattern)))

/-- Reads a choice between sequences. -/
def choices (top : Bool) (f : Flags) : Nat → Reader Pattern
  | 0 => malformed
  | fuel + 1 => do
    let first ← pieces top f fuel []
    let p := sequence (first.reverse.map (·.pattern))
    if ← accept '|' then
      let s ← get
      return .either p (← choices false (if top then s.flags else f) fuel)
    return p

end

end Reader

/-- Reads the text of a pattern under flags. -/
def read (flags : Flags) (s : String) : Except Failure Pattern := do
  let (p, after) ← (Reader.choices true flags (4 * s.length + 4)).run
    { rest := s.toList, flags }
  if !after.rest.isEmpty || after.asked.any (after.next ≤ ·) || after.uneven then
    throw .badTemplate
  return p

end BuildMeta.Text.Pattern
