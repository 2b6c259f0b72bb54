import BuildMeta.Datum

/-!
# Filling in templates

A template holds conversions, each a percent sign with a letter that says how a value is written.
Between them may stand, in this order, a key in brackets that takes the value from a dictionary, flags,
a width, a precision after a point, and a letter for the size of the value, which has no effect.  A star
for a width or precision takes it from the values.
-/

namespace BuildMeta.Text

/-- The values for a template. -/
inductive FormatArgs where
  /-- Values that are used up in turn. -/
  | several (values : List Datum)
  /-- One value; a dictionary also gives values by key. -/
  | single (value : Datum)
deriving Repr, Inhabited

namespace FormatArgs

/-- The values to use up. -/
def values : FormatArgs → List Datum
  | several xs => xs
  | single x => [x]

/-- The dictionary that gives values by key. -/
def table? : FormatArgs → Option (List (String × Datum))
  | single (.dict fields) => some fields
  | _ => none

end FormatArgs

/-! ## Conversions -/

/-- How a value is written. -/
structure Conversion where
  /-- Whether the text stands to the left in its width. -/
  left : Bool := false
  /-- Whether a number has a sign in any case. -/
  plus : Bool := false
  /-- Whether a number without sign has a blank for it. -/
  blank : Bool := false
  /-- Whether a number shows its base, or its point in any case. -/
  alternate : Bool := false
  /-- Whether zeros fill a number up to its width. -/
  zeros : Bool := false
  width : Nat := 0
  precision : Option Nat := none
  kind : Char
deriving Repr, Inhabited

namespace Conversion

/-- A text in the width of a conversion. -/
def pad (c : Conversion) (text : List Char) : List Char :=
  let blanks := List.replicate (c.width - text.length) ' '
  if c.left then text ++ blanks else blanks ++ text

/-- A number in the width of a conversion; zeros stand between the mark of its base and its digits. -/
def padNumber (c : Conversion) (negative : Bool) (mark digits : List Char) : List Char :=
  let sign := if negative then ['-'] else if c.plus then ['+'] else if c.blank then [' '] else []
  let front := sign ++ mark
  if c.zeros && !c.left then
    front ++ List.replicate (c.width - (front.length + digits.length)) '0' ++ digits
  else c.pad (front ++ digits)

/-- An integer in a base. -/
def integer (c : Conversion) (base : Nat) (mark : List Char) (n : Int) : List Char :=
  let digits := Nat.toDigits base n.natAbs
  let digits := List.replicate (c.precision.getD 0 - digits.length) '0' ++ digits
  c.padNumber (n < 0) (if c.alternate then mark else []) digits

/-- A number with decimal places. -/
def number (c : Conversion) (x : Binary64) : List Char :=
  let count := c.precision.getD 6
  let text := match c.kind.toLower with
    | 'e' => x.scientific count c.alternate
    | 'f' => x.fixed count c.alternate
    | _ => x.general count c.alternate
  c.padNumber x.isNegative [] (text.toList.dropWhile (· == '-'))

/-- The integer of a value; decimal places are dropped. -/
def wholeOf : Datum → Except Failure Int
  | .real x => x.truncate
  | d => d.number?.elim (.error .wrongType) .ok

/-- The number of a value. -/
def realOf : Datum → Except Failure Binary64
  | .real x => .ok x
  | d => d.number?.elim (.error .wrongType) Binary64.ofInt

/-- The character of a value: one by its code, or a text of one character. -/
def charOf : Datum → Except Failure Char
  | .str s =>
    match s.toList with
    | [c] => .ok c
    | _ => .error .wrongType
  | d =>
    match d.number? with
    | some n => if 0 ≤ n && n < 0x110000 then .ok (Char.ofNat n.toNat) else .error .tooLarge
    | none => .error .wrongType

/-- The text of a value under a conversion. -/
def apply (c : Conversion) (value : Datum) : Except Failure (List Char) :=
  let text (s : String) : List Char := c.pad (match c.precision with
    | some n => s.toList.take n
    | none => s.toList)
  match c.kind with
  | 's' => .ok (text value.text)
  | 'r' => .ok (text value.repr)
  | 'a' => .ok (text (ascii value.repr))
  | 'd' | 'i' | 'u' => (c.integer 10 []) <$> wholeOf value
  | 'o' => (c.integer 8 ['0', 'o']) <$> value.number?.elim (.error .wrongType) .ok
  | 'x' => (c.integer 16 ['0', 'x']) <$> value.number?.elim (.error .wrongType) .ok
  | 'X' => (fun n => (c.integer 16 ['0', 'x'] n).map Char.toUpper) <$>
      value.number?.elim (.error .wrongType) .ok
  | 'e' | 'f' | 'g' => c.number <$> realOf value
  | 'E' | 'F' | 'G' => (fun x => (c.number x).map Char.toUpper) <$> realOf value
  | 'c' => (fun x => c.pad [x]) <$> charOf value
  | _ => .error .badValue

end Conversion

/-! ## Reading templates -/

/-- The state of filling in a template. -/
structure Filling where
  /-- What is still to be read of the template. -/
  rest : List Char
  /-- The values that are still to be used. -/
  left : List Datum
deriving Inhabited

/-- A step of filling in a template. -/
abbrev Fill := StateT Filling (Except Failure)

namespace Fill

/-- The next value. -/
def value : Fill Datum := do
  match (← get).left with
  | [] => throw .wrongType
  | x :: left =>
    modify fun s => { s with left }
    return x

/-- The next value, which is an integer. -/
def integer : Fill Int := do
  match (← value).number? with
  | some n => return n
  | none => throw .wrongType

/-- Reads the next character if it is one of the given ones. -/
def accept? (cs : List Char) : Fill (Option Char) := do
  match (← get).rest with
  | c :: rest =>
    if cs.contains c then
      modify fun s => { s with rest }
      return some c
    else return none
  | [] => return none

/-- Reads the longest run of characters of a class. -/
def runOf (p : Char → Bool) : Fill (List Char) := do
  let taken := (← get).rest.takeWhile p
  modify fun s => { s with rest := s.rest.drop taken.length }
  return taken

/-- Reads digits as a number, which has a bound. -/
def digits (bound : Nat) : Fill Nat := do
  let n := (← runOf fun c => '0' ≤ c && c ≤ '9').foldl (fun n c => 10 * n + (c.toNat - '0'.toNat)) 0
  if bound < n then throw .badValue
  return n

/-- The number of characters up to the bracket that closes `depth` open ones. -/
def keyLength? (depth : Nat) : List Char → Option Nat
  | [] => none
  | ')' :: rest => if depth ≤ 1 then some 0 else (keyLength? (depth - 1) rest).map (· + 1)
  | '(' :: rest => (keyLength? (depth + 1) rest).map (· + 1)
  | _ :: rest => (keyLength? depth rest).map (· + 1)

/-- Reads a key in brackets and makes its value the next one. -/
def key (table? : Option (List (String × Datum))) : Fill Unit := do
  let some fields := table? | throw .wrongType
  let s ← get
  let some n := keyLength? 1 s.rest | throw .badValue
  match fields.lookup (String.ofList (s.rest.take n)) with
  | some v => set ({ rest := s.rest.drop (n + 1), left := [v] } : Filling)
  | none => throw .absentKey

/-- The largest width of a text. -/
def maxWidth : Nat := 9223372036854775807

/-- The largest precision. -/
def maxPrecision : Nat := 2147483647

/-- Reads the width; one below zero is a width to the left. -/
def width (c : Conversion) : Fill Conversion := do
  match ← accept? ['*'] with
  | some _ =>
    let n ← integer
    if maxWidth < n.natAbs then throw .tooLarge
    return { c with width := n.natAbs, left := c.left || n < 0 }
  | none => return { c with width := ← digits maxWidth }

/-- Reads the precision after its point, if there is one. -/
def precision (c : Conversion) : Fill Conversion := do
  match ← accept? ['.'] with
  | none => return c
  | some _ =>
    match ← accept? ['*'] with
    | some _ =>
      let n ← integer
      if maxPrecision < n.natAbs then throw .tooLarge
      return { c with precision := some n.toNat }
    | none => return { c with precision := some (← digits maxPrecision) }

/-- Reads a conversion after its percent sign, and writes the value that it asks for. -/
def conversion (table? : Option (List (String × Datum))) : Fill (List Char) := do
  if (← accept? ['(']).isSome then key table?
  let flags ← runOf fun c => ['#', '0', '-', ' ', '+'].contains c
  let c ← width { left := flags.contains '-', plus := flags.contains '+'
                  blank := flags.contains ' ', alternate := flags.contains '#'
                  zeros := flags.contains '0', kind := 's' }
  let c ← precision c
  let _ ← accept? ['h', 'l', 'L']
  match (← get).rest with
  | [] => throw .badValue
  | kind :: rest =>
    modify fun s => { s with rest }
    ({ c with kind } : Conversion).apply (← value)

/-- Fills in a template; every step reads a character, and uses one unit of fuel. -/
def template (table? : Option (List (String × Datum))) : Nat → Fill (List Char)
  | 0 => return []
  | fuel + 1 => do
    match (← get).rest with
    | [] => return []
    | '%' :: '%' :: rest =>
      modify fun s => { s with rest }
      return '%' :: (← template table? fuel)
    | '%' :: rest =>
      modify fun s => { s with rest }
      let text ← conversion table?
      return text ++ (← template table? fuel)
    | c :: rest =>
      modify fun s => { s with rest }
      return c :: (← template table? fuel)

end Fill

/-- Fills in a template.  Without a dictionary all values have to be used. -/
def format (template : String) (args : FormatArgs) : Except Failure String := do
  let (text, s) ← (Fill.template args.table? (template.length + 1)).run
    { rest := template.toList, left := args.values }
  if !s.left.isEmpty && args.table?.isNone then throw .wrongType
  return String.ofList text

end BuildMeta.Text
