import BuildMeta.Text.Cut

/-!
# Integers in text

An integer is written as an optional sign and digits of any script, with single underscores allowed
between digits and white space around the whole.  In bases other than ten a mark such as `0x` may
stand before the digits.
-/

namespace BuildMeta.Text

/-- White space around an integer: that of texts, without the four separator control characters. -/
def isIntegerBlank (c : Char) : Bool := isBlank c && !(28 ≤ c.toNat && c.toNat ≤ 31)

/-- The longest decimal digit string that is read as an integer. -/
def maxIntegerDigits : Nat := 4300

/-- The value of a character as a digit of a number in bases up to sixteen. -/
def digitValue? (c : Char) : Option Nat :=
  if 'a' ≤ c ∧ c ≤ 'f' then some (c.toNat - 'a'.toNat + 10)
  else if 'A' ≤ c ∧ c ≤ 'F' then some (c.toNat - 'A'.toNat + 10)
  else decimalValue? c

/-- The value of a character as a digit in a base. -/
def digitIn? (base : Nat) (c : Char) : Option Nat := (digitValue? c).filter (· < base)

/-- The digits of a text in which single underscores may stand between digits. -/
def digitsOf? (base : Nat) : List Char → Option (List Nat)
  | [] => none
  | [c] => (digitIn? base c).map ([·])
  | c :: '_' :: rest => do return (← digitIn? base c) :: (← digitsOf? base rest)
  | c :: d :: rest => do return (← digitIn? base c) :: (← digitsOf? base (d :: rest))

/-- The natural number with the given digits, most significant first. -/
def ofDigits (base : Nat) (ds : List Nat) : Nat := ds.foldl (fun n d => base * n + d) 0

/-- Reads unsigned digits. -/
def natural? (base : Nat) (s : List Char) : Option Nat :=
  match digitsOf? base s with
  | some ds =>
    if base == 10 && ds.length > maxIntegerDigits then none else some (ofDigits base ds)
  | none => none

/-- The letter that marks numbers in a base after a zero. -/
def baseMark? : Nat → Option Char
  | 2 => some 'b'
  | 8 => some 'o'
  | 16 => some 'x'
  | _ => none

/-- Drops the mark of a base before its digits; one underscore may follow the mark. -/
def dropBaseMark (base : Nat) : List Char → List Char
  | '0' :: c :: rest =>
    if baseMark? base == some c.toLower then
      match rest with
      | '_' :: digits => digits
      | digits => digits
    else '0' :: c :: rest
  | s => s

/-- Reads a text as an integer in a base. -/
def integerIn? (base : Nat) (s : String) : Option Int :=
  match trimWhile isIntegerBlank s.toList with
  | '-' :: rest => (natural? base (dropBaseMark base rest)).map fun n => -Int.ofNat n
  | '+' :: rest => (natural? base (dropBaseMark base rest)).map Int.ofNat
  | rest => (natural? base (dropBaseMark base rest)).map Int.ofNat

/-- Reads a text as a decimal integer. -/
def integer? (s : String) : Option Int := integerIn? 10 s

/-- Whether a text reads as a decimal integer. -/
def isInteger (s : String) : Bool := (integer? s).isSome

/-- Reads a text as an integer whose base shows at its front: `0x` for sixteen, `0b` for two, any
other zero for eight, and ten without. -/
def literalInteger? (s : String) : Option Int :=
  match s.toList with
  | '0' :: c :: rest =>
    if c == 'x' || c == 'X' then integerIn? 16 s
    else if c == 'b' || c == 'B' then
      if rest.isEmpty then some 0 else integerIn? 2 (String.ofList rest)
    else integerIn? 8 s
  | ['0'] => some 0
  | _ => integer? s

end BuildMeta.Text
