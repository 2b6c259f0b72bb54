import BuildMeta.CommandLine.Basic

/-!
# Help texts

The help text of a program lists its switches in two columns.  Explanations are broken into lines
at blanks, and after hyphens between words of two letters or more.
-/

namespace BuildMeta.CommandLine

/-! ## Breaking text into lines -/

/-- Whether a character is a letter. -/
def isLetter (c : Char) : Bool := Text.isWord c && !Text.isDecimal c && c != '_'

/-- Whether a text starts with two letters, perhaps with a hyphen between them. -/
def startsWord : List Char → Bool
  | a :: '-' :: b :: _ => isLetter a && isLetter b
  | a :: b :: _ => isLetter a && isLetter b
  | _ => false

/-- Whether reversed text ends in a hyphen at which a word may be broken. -/
def endsAtHyphen : List Char → Bool
  | '-' :: a :: '-' :: b :: _ => isLetter a && isLetter b
  | '-' :: a :: b :: _ => isLetter a && isLetter b
  | _ => false

/-- The pieces of a text between which lines may be broken: runs of blanks, and words or parts of
words.  `piece` is the reversed piece read so far. -/
def piecesFrom (piece : List Char) : List Char → List (List Char)
  | [] => if piece.isEmpty then [] else [piece.reverse]
  | c :: rest =>
    match piece with
    | [] => piecesFrom [c] rest
    | last :: _ =>
      if (last == ' ') != (c == ' ') || (endsAtHyphen piece && startsWord (c :: rest)) then
        piece.reverse :: piecesFrom [c] rest
      else piecesFrom (c :: piece) rest

/-- Fills lines of a width with pieces; `line` is the line begun. -/
def fillFrom (width : Nat) (line : List Char) : List (List Char) → List (List Char)
  | [] => if line.isEmpty then [] else [Text.trimEndWhile (· == ' ') line]
  | piece :: rest =>
    if line.length + piece.length ≤ width || line.isEmpty then
      fillFrom width (line ++ piece) rest
    else
      let next := if piece.head? == some ' ' then [] else piece
      Text.trimEndWhile (· == ' ') line :: fillFrom width next rest

/-- The lines of a text that is broken to a width. -/
def wrap (width : Nat) (text : String) : List String :=
  (fillFrom width [] (piecesFrom [] text.toList)).map String.ofList

/-! ## Columns -/

/-- The width of a help text. -/
def helpWidth : Nat := 78

/-- The rightmost place where explanations start. -/
def helpColumn : Nat := 24

/-- How the names of a switch are shown, with the place for its value. -/
def Switch.shape (s : Switch) : String :=
  let value := Text.upper s.key
  let short := s.shortNames.map fun n => if s.takesValue then n ++ " " ++ value else n
  let long := s.longNames.map fun n => if s.takesValue then n ++ "=" ++ value else n
  Text.join ", " (short ++ long)

/-- The explanation of a switch, in which its start value is shown. -/
def Switch.explanation (s : Switch) (start : Table Datum) : String :=
  let shown := match start.getD s.key .null with
    | .null => "none"
    | v => v.text
  Text.replace s.help "%default" shown

namespace Program

/-- The column at which the explanations of a program start. -/
def column (p : Program) : Nat :=
  let widths := p.switches.map (·.shape.length + 2) ++
    p.groups.flatMap fun (_, switches) => switches.map (·.shape.length + 4)
  min ((widths.max?.getD 0) + 2) helpColumn

/-- Blanks. -/
def blanks (n : Nat) : String := Text.padRight n ""

/-- The lines that explain a switch at an indentation. -/
def explain (p : Program) (indent : Nat) (s : Switch) : String :=
  let column := p.column
  let width := column - indent - 2
  let fits := s.shape.length ≤ width
  let front := if fits then blanks indent ++ Text.padRight width s.shape ++ "  "
    else blanks indent ++ s.shape ++ "\n"
  match wrap (max (helpWidth - column) 11) (s.explanation p.startValues) with
  | [] => if fits then front ++ "\n" else front
  | first :: rest =>
    front ++ (if fits then "" else blanks column) ++ first ++ "\n" ++
      String.join (rest.map fun line => blanks column ++ line ++ "\n")

/-- The line that shows how to use a program. -/
def usageLine (p : Program) : String := "Usage: " ++ p.usage ++ "\n"

/-- The help text of a program. -/
def help (p : Program) : String :=
  p.usageLine ++ "\nOptions:\n" ++ String.join (p.switches.map (p.explain 2)) ++
    String.join (p.groups.map fun (title, switches) =>
      "\n  " ++ title ++ ":\n" ++ String.join (switches.map (p.explain 4)))

end Program

end BuildMeta.CommandLine
