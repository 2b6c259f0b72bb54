import BuildMeta.Datum
import BuildMeta.Text.Integer

/-!
# JSON tokens

The text of a JSON document is cut into punctuation marks and atoms.  Beside the atoms of the
standard, the words `NaN`, `Infinity` and `-Infinity` are numbers.
-/

namespace BuildMeta.Json

/-- A token of a JSON text. -/
inductive Token where
  /-- A bracket, brace, comma or colon. -/
  | mark (c : Char)
  /-- A text, number, truth value or null. -/
  | atom (value : Datum)
  /-- An integer of too many digits. -/
  | tooLong
  /-- A place where no token can be read. -/
  | stray
deriving Repr, Inhabited

/-! ## Texts -/

/-- The value of a hexadecimal digit. -/
def hexDigit? (c : Char) : Option Nat :=
  if '0' ≤ c && c ≤ '9' then some (c.toNat - '0'.toNat)
  else if 'a' ≤ c && c ≤ 'f' then some (c.toNat - 'a'.toNat + 10)
  else if 'A' ≤ c && c ≤ 'F' then some (c.toNat - 'A'.toNat + 10)
  else none

/-- The value of four hexadecimal digits. -/
def hexUnit? (a b c d : Char) : Option Nat := do
  return (((← hexDigit? a) * 16 + (← hexDigit? b)) * 16 + (← hexDigit? c)) * 16 + (← hexDigit? d)

/-- The character that a one-letter escape stands for. -/
def escaped? : Char → Option Char
  | '"' => some '"'
  | '\\' => some '\\'
  | '/' => some '/'
  | 'b' => some '\x08'
  | 'f' => some '\x0c'
  | 'n' => some '\n'
  | 'r' => some '\r'
  | 't' => some '\t'
  | _ => none

/-- The code units of a text up to its closing quote, and the number of characters they take with the
quote. -/
def textUnits : List Char → Option (List Nat × Nat)
  | [] => none
  | '"' :: _ => some ([], 1)
  | '\\' :: 'u' :: a :: b :: c :: d :: rest => do
    let unit ← hexUnit? a b c d
    let (units, size) ← textUnits rest
    return (unit :: units, size + 6)
  | '\\' :: e :: rest => do
    let c ← escaped? e
    let (units, size) ← textUnits rest
    return (c.toNat :: units, size + 2)
  | c :: rest =>
    if c.toNat < 0x20 then none
    else do
      let (units, size) ← textUnits rest
      return (c.toNat :: units, size + 1)

/-- Whether a code unit is the first half of a pair. -/
def isHighHalf (n : Nat) : Bool := 0xd800 ≤ n && n < 0xdc00

/-- Whether a code unit is the second half of a pair. -/
def isLowHalf (n : Nat) : Bool := 0xdc00 ≤ n && n < 0xe000

/-- Joins the pairs among code units. -/
def joinUnits : List Nat → List Char
  | [] => []
  | [n] => [Char.ofNat n]
  | n :: m :: rest =>
    if isHighHalf n && isLowHalf m then
      Char.ofNat (0x10000 + (n - 0xd800) * 0x400 + (m - 0xdc00)) :: joinUnits rest
    else Char.ofNat n :: joinUnits (m :: rest)

/-! ## Numbers -/

/-- Whether a character is a decimal digit. -/
def isDigit (c : Char) : Bool := '0' ≤ c && c ≤ '9'

/-- The digits of a fraction with their point at the front of a text, or nothing. -/
def fraction (s : List Char) : List Char :=
  match s with
  | '.' :: rest =>
    match rest.takeWhile isDigit with
    | [] => []
    | digits => '.' :: digits
  | _ => []

/-- The exponent at the front of a text, or nothing. -/
def exponent (s : List Char) : List Char :=
  match s with
  | e :: rest =>
    if e == 'e' || e == 'E' then
      let sign := match rest with
        | c :: _ => if c == '+' || c == '-' then [c] else []
        | [] => []
      match (rest.drop sign.length).takeWhile isDigit with
      | [] => []
      | digits => e :: sign ++ digits
    else []
  | [] => []

/-- The exponent that its text stands for. -/
def exponentValue : List Char → Int
  | _ :: '-' :: digits => -Int.ofNat (Text.ofDigits 10 (digits.map fun c => c.toNat - '0'.toNat))
  | _ :: digits => Int.ofNat (Text.ofDigits 10 ((digits.filter isDigit).map fun c =>
      c.toNat - '0'.toNat))
  | [] => 0

/-- The number at the front of a text, and the number of its characters.  It is an integer unless it
has decimal places or an exponent. -/
def number? (s : List Char) : Option (Token × Nat) :=
  let sign := if s.head? == some '-' then ['-'] else []
  let body := s.drop sign.length
  let whole := match body with
    | '0' :: _ => ['0']
    | _ => body.takeWhile isDigit
  if whole.isEmpty then none
  else
    let rest := body.drop whole.length
    let places := fraction rest
    let exp := exponent (rest.drop places.length)
    let size := sign.length + whole.length + places.length + exp.length
    if places.isEmpty && exp.isEmpty then
      match Text.integer? (String.ofList (sign ++ whole)) with
      | some n => some (.atom (.int n), size)
      | none => some (.tooLong, size)
    else
      some (.atom (.real (.ofDecimal (!sign.isEmpty) whole (places.drop 1) (exponentValue exp))), size)

/-! ## Tokens -/

/-- The words that stand for values. -/
def words : List (List Char × Datum) :=
  [("null".toList, .null), ("true".toList, .bool true), ("false".toList, .bool false),
    ("NaN".toList, .real .nan), ("Infinity".toList, .real (.infinite false)),
    ("-Infinity".toList, .real (.infinite true))]

/-- Whether a character may stand between tokens. -/
def isSpace (c : Char) : Bool := c == ' ' || c == '\t' || c == '\n' || c == '\r'

/-- The token at the front of a text, and the number of its characters. -/
def token? (s : List Char) : Option (Token × Nat) :=
  match s with
  | [] => none
  | c :: rest =>
    if ['[', ']', '\x7b', '\x7d', ',', ':'].contains c then some (.mark c, 1)
    else if c == '"' then
      (textUnits rest).map fun (units, size) =>
        (.atom (.str (String.ofList (joinUnits units))), size + 1)
    else match words.find? (fun w => w.1.isPrefixOf s) with
      | some (word, value) => some (.atom value, word.length)
      | none => number? s

/-- Cuts a text into tokens, up to a place where none can be read; `skip` characters of a token are
still to be passed. -/
def tokensFrom : Nat → List Char → List Token
  | _, [] => []
  | skip + 1, _ :: rest => tokensFrom skip rest
  | 0, c :: rest =>
    if isSpace c then tokensFrom 0 rest
    else match token? (c :: rest) with
      | some (token, size) => token :: tokensFrom (size - 1) rest
      | none => [.stray]

end BuildMeta.Json
