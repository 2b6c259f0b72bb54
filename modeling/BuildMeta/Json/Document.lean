import BuildMeta.Failure
import BuildMeta.Json.Token

/-!
# JSON documents

Reading the value of a JSON text, and writing values as JSON in ASCII.  Of several fields with one
name in an object the last one counts, at the place of the first.
-/

namespace BuildMeta.Json

/-! ## Reading -/

mutual

/-- Reads the value at the front of a token list; each step of the reader uses one unit of fuel. -/
def value : Nat → List Token → Except Failure (Datum × List Token)
  | 0, _ => .error .malformedJson
  | fuel + 1, tokens =>
    match tokens with
    | .atom d :: rest => .ok (d, rest)
    | .tooLong :: _ => .error .badValue
    | .mark '[' :: .mark ']' :: rest => .ok (.list [], rest)
    | .mark '[' :: rest => do
      let (items, rest) ← members fuel rest
      return (.list items, rest)
    | .mark '\x7b' :: .mark '\x7d' :: rest => .ok (.dict [], rest)
    | .mark '\x7b' :: rest => do
      let (fields, rest) ← entries fuel rest
      return (.dict (Table.ofList fields).entries, rest)
    | _ => .error .malformedJson

/-- Reads the members of a list up to its closing bracket. -/
def members : Nat → List Token → Except Failure (List Datum × List Token)
  | 0, _ => .error .malformedJson
  | fuel + 1, tokens => do
    let (item, rest) ← value fuel tokens
    match rest with
    | .mark ']' :: rest => return ([item], rest)
    | .mark ',' :: rest =>
      let (items, rest) ← members fuel rest
      return (item :: items, rest)
    | _ => throw .malformedJson

/-- Reads the fields of an object up to its closing brace. -/
def entries : Nat → List Token → Except Failure (List (String × Datum) × List Token)
  | 0, _ => .error .malformedJson
  | fuel + 1, tokens =>
    match tokens with
    | .atom (.str key) :: .mark ':' :: rest => do
      let (item, rest) ← value fuel rest
      match rest with
      | .mark '\x7d' :: rest => return ([(key, item)], rest)
      | .mark ',' :: rest =>
        let (fields, rest) ← entries fuel rest
        return ((key, item) :: fields, rest)
      | _ => throw .malformedJson
    | _ => .error .malformedJson

end

/-- The value of a JSON text. -/
def read (text : String) : Except Failure Datum := do
  let tokens := tokensFrom 0 text.toList
  match ← value (2 * tokens.length + 1) tokens with
  | (d, []) => return d
  | _ => throw .malformedJson

/-! ## Writing -/

/-- A number below sixteen as a hexadecimal digit. -/
def hexChar (n : Nat) : Char :=
  if n < 10 then Char.ofNat ('0'.toNat + n) else Char.ofNat ('a'.toNat + n - 10)

/-- A code unit as an escape. -/
def unitEscape (n : Nat) : List Char :=
  ['\\', 'u', hexChar (n / 0x1000 % 16), hexChar (n / 0x100 % 16), hexChar (n / 16 % 16),
    hexChar (n % 16)]

/-- A character as it stands in a written text. -/
def charText (c : Char) : List Char :=
  match c with
  | '"' => ['\\', '"']
  | '\\' => ['\\', '\\']
  | '\n' => ['\\', 'n']
  | '\r' => ['\\', 'r']
  | '\t' => ['\\', 't']
  | '\x08' => ['\\', 'b']
  | '\x0c' => ['\\', 'f']
  | c =>
    let n := c.toNat
    if 0x20 ≤ n && n < 0x7f then [c]
    else if n < 0x10000 then unitEscape n
    else unitEscape (0xd800 + (n - 0x10000) / 0x400) ++ unitEscape (0xdc00 + (n - 0x10000) % 0x400)

/-- A number that is not an integer. -/
def realText : Binary64 → String
  | .nan => "NaN"
  | .infinite negative => if negative then "-Infinity" else "Infinity"
  | x => x.text

/-- A text between quotes. -/
def quoted (s : String) : String :=
  "\"" ++ String.ofList (s.toList.flatMap charText) ++ "\""

mutual

/-- A value as JSON. -/
def write : Datum → String
  | .null => "null"
  | .bool true => "true"
  | .bool false => "false"
  | .int n => toString n
  | .real x => realText x
  | .str s => quoted s
  | .list xs => "[" ++ Text.join ", " (writeAll xs) ++ "]"
  | .dict fs => "\x7b" ++ Text.join ", " (writeFields fs) ++ "\x7d"

/-- The members of a list as JSON. -/
def writeAll : List Datum → List String
  | [] => []
  | x :: rest => write x :: writeAll rest

/-- The fields of an object as JSON. -/
def writeFields : List (String × Datum) → List String
  | [] => []
  | (k, v) :: rest => (quoted k ++ ": " ++ write v) :: writeFields rest

end

end BuildMeta.Json
