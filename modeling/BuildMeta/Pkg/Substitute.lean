import BuildMeta.Failure
import BuildMeta.Table
import BuildMeta.Text.Integer

/-!
# References in package files

A value may refer to variables as `$` with a name in braces; two dollar signs stand for one and
make no reference.  Names are replaced one after the other in the order in which the value first
mentions them, each throughout the text that the earlier ones have left.  The text put in is a
template, in which a backslash starts an escape.
-/

namespace BuildMeta.Pkg

/-! ## Templates -/

/-- A piece of a template. -/
inductive Piece where
  | char (c : Char)
  /-- The text that is replaced. -/
  | whole
deriving Repr, BEq, DecidableEq, Inhabited

namespace Piece

/-- Whether a character is an octal digit. -/
def isOctal (c : Char) : Bool := '0' ≤ c && c ≤ '7'

/-- The value of octal digits. -/
def octal (ds : List Char) : Nat := ds.foldl (fun n c => 8 * n + (c.toNat - '0'.toNat)) 0

/-- Whether a text is an identifier. -/
def isIdentifier : List Char → Bool
  | [] => false
  | c :: rest => Text.isWord c && !Text.isDecimal c && rest.all Text.isWord

/-- The character that an escape letter stands for. -/
def escape? : Char → Option Char
  | 'a' => some '\x07'
  | 'b' => some '\x08'
  | 'f' => some '\x0c'
  | 'n' => some '\n'
  | 'r' => some '\r'
  | 't' => some '\t'
  | 'v' => some '\x0b'
  | '\\' => some '\\'
  | _ => none

/-- The piece that a group reference in angle brackets stands for.  There is no group but the whole
text. -/
def ofGroup (name : List Char) : Except Failure Piece :=
  if isIdentifier name then .error .outOfRange
  else if Text.integer? (String.ofList name) == some 0 then .ok whole
  else .error .badTemplate

/-- The pieces that the text after a backslash stands for, and how many characters it takes. -/
def ofEscape : List Char → Except Failure (List Piece × Nat)
  | [] => .error .badTemplate
  | 'g' :: '<' :: rest => do
    let name := rest.takeWhile (· != '>')
    if name.isEmpty || name.length == rest.length then throw .badTemplate
    return ([← ofGroup name], name.length + 3)
  | '0' :: rest =>
    let digits := (rest.take 2).takeWhile isOctal
    .ok ([char (Char.ofNat (octal digits % 256))], 1 + digits.length)
  | c :: rest =>
    if c.isDigit then
      let digits := c :: (rest.take 2).takeWhile isOctal
      if isOctal c && digits.length == 3 && octal digits ≤ 255 then
        .ok ([char (Char.ofNat (octal digits))], 3)
      else .error .badTemplate
    else
      match escape? c with
      | some e => .ok ([char e], 1)
      | none => if c.isAlpha then .error .badTemplate else .ok ([char '\\', char c], 1)

/-- The pieces of a template.  `skip` characters belong to the escape read last. -/
def readFrom : Nat → List Char → Except Failure (List Piece)
  | _, [] => .ok []
  | skip + 1, _ :: rest => readFrom skip rest
  | 0, '\\' :: rest => do
    let (pieces, length) ← ofEscape rest
    return pieces ++ (← readFrom length rest)
  | 0, c :: rest => do return char c :: (← readFrom 0 rest)

/-- The pieces of a template. -/
def readAll (template : String) : Except Failure (List Piece) := readFrom 0 template.toList

/-- The text that pieces put in place of a text. -/
def fill (pieces : List Piece) (replaced : List Char) : List Char :=
  pieces.flatMap fun
    | char c => [c]
    | whole => replaced

end Piece

/-! ## References -/

/-- Whether the name of a variable may hold a character. -/
def isVariableChar (c : Char) : Bool := Text.isWord c || c == '.'

/-- The name in braces at the front of a text. -/
def bracedName? : List Char → Option (List Char)
  | '\x7b' :: rest =>
    let name := rest.takeWhile isVariableChar
    if !name.isEmpty && (rest.drop name.length).head? == some '\x7d' then some name else none
  | _ => none

/-- The names that a text refers to, in order. -/
def referencesFrom (afterDollar : Bool) : List Char → List (List Char)
  | [] => []
  | c :: rest =>
    if c == '$' then
      (if afterDollar then [] else (bracedName? rest).toList) ++ referencesFrom true rest
    else referencesFrom false rest

/-- The names that a text refers to, each once, in the order of first mention. -/
def references (text : String) : List String :=
  ((referencesFrom false text.toList).eraseDups).map String.ofList

/-- Whether a name followed by a closing brace fits the front of a text.  A dot in the name fits any
character. -/
def fitsName : List Char → List Char → Bool
  | [], s => s.head? == some '\x7d'
  | _ :: _, [] => false
  | n :: name, c :: rest => (if n == '.' then c != '\n' else n == c) && fitsName name rest

/-- Whether a name in braces fits the front of a text. -/
def fitsBraced (name : List Char) : List Char → Bool
  | '\x7b' :: rest => fitsName name rest
  | _ => false

/-- Replaces the references to a name.  `skip` characters belong to the reference replaced last. -/
def replaceFrom (name : List Char) (pieces : List Piece) (afterDollar : Bool) :
    Nat → List Char → List Char
  | _, [] => []
  | skip + 1, _ :: rest => replaceFrom name pieces false skip rest
  | 0, c :: rest =>
    if c == '$' && !afterDollar && fitsBraced name rest then
      Piece.fill pieces (c :: rest.take (name.length + 2)) ++
        replaceFrom name pieces false (name.length + 2) rest
    else c :: replaceFrom name pieces (c == '$') 0 rest

/-- Replaces the references to a name by what a template says. -/
def replaceReference (text name template : String) : Except Failure String := do
  let pieces ← Piece.readAll template
  return String.ofList (replaceFrom name.toList pieces false 0 text.toList)

/-- Replaces all references of a text, by global variables before others. -/
def substitute (text : String) (vars globals : Table String) : Except Failure String := do
  let replaced ← (references text).foldlM (fun value name =>
    match (globals.get? name).or (vars.get? name) with
    | some template => replaceReference value name template
    | none => throw (.undefinedVariable name none)) text
  return Text.replace replaced "$$" "$"

end BuildMeta.Pkg
