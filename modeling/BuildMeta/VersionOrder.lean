import BuildMeta.Text.Integer

/-!
# Dotted versions

Versions are compared part by part after the shorter ones have been filled up with zeros.  Two
integer parts compare as numbers; any other two parts are related only if they are the same text,
so the order is partial.  A version is held against both of its bounds in rows of three parts, for
which all three lists of parts are given one length.
-/

namespace BuildMeta.VersionOrder

/-- How two parts of a version relate. -/
inductive Relation where
  | less
  | same
  | greater
  | unrelated
deriving Repr, BEq, DecidableEq

/-- Compares two parts. -/
def compareParts (a b : String) : Relation :=
  match Text.integer? a, Text.integer? b with
  | some m, some n => if m < n then .less else if n < m then .greater else .same
  | _, _ => if a = b then .same else .unrelated

/-- Goes through pairs of parts until one of them decides: the first part of it has to be the
smaller number. -/
def ascends : List (String × String) → Bool
  | [] => true
  | (a, b) :: rest =>
    match compareParts a b with
    | .less => true
    | .same => ascends rest
    | .greater => false
    | .unrelated => false

/-- The parts of a version and of its bounds.  The lists are kept in cells, where they are filled up
in place; a bound that does not restrict has the cell of the version itself. -/
structure Columns where
  cells : List (List String)
  version : Nat
  least : Nat
  greatest : Nat
deriving Repr, BEq, DecidableEq

namespace Columns

/-- The list in a cell. -/
def column (c : Columns) (cell : Nat) : List String := c.cells.getD cell []

/-- Opens a cell for a bound; without one, that of the version is used. -/
def opened (cells : List (List String)) : Option String → List (List String) × Nat
  | some bound => (cells ++ [Text.split '.' bound], cells.length)
  | none => (cells, 0)

/-- The parts of a version and of its bounds, each as long as it is. -/
def ofVersions (version : String) (least greatest : Option String) : Columns :=
  let (cells, least) := opened [Text.split '.' version] least
  let (cells, greatest) := opened cells greatest
  { cells, version := 0, least, greatest }

/-- The number of rows: the length of the longest list. -/
def height (c : Columns) : Nat :=
  max (max (c.column c.version).length (c.column c.least).length) (c.column c.greatest).length

/-- A list with zeros at its end that bring it to a length. -/
def padded (height : Nat) (parts : List String) : List String :=
  parts ++ List.replicate (height - parts.length) "0"

/-- Fills up the lists of the version and of its bounds in turn. -/
def filled (c : Columns) : Columns :=
  { c with cells := [c.version, c.least, c.greatest].foldl (fun cells cell =>
      cells.modify cell (padded c.height)) c.cells }

/-- The parts at the same place of the version, the least and the greatest bound. -/
def rows (c : Columns) : List (String × String × String) :=
  (c.column c.version).zip ((c.column c.least).zip (c.column c.greatest))

end Columns

/-- Whether a version lies between two bounds; a missing or empty bound does not restrict. -/
def within (version : String) (least greatest : Option String) : Bool :=
  let least := least.filter (· != "")
  let greatest := greatest.filter (· != "")
  let rows := (Columns.ofVersions version least greatest).filled.rows
  (least.isNone || ascends (rows.map fun row => (row.2.1, row.1))) &&
    (greatest.isNone || ascends (rows.map fun row => (row.1, row.2.2)))

end BuildMeta.VersionOrder
