import BuildMeta.Binary64.Decimal
import BuildMeta.Table
import BuildMeta.Text.Integer
import BuildMeta.Text.Quote

/-!
# Dynamic values

Configuration files, build variables and option values hold values whose type is known only when
they are read.  A `Datum` is such a value; it can be tested, compared and shown as text.
-/

namespace BuildMeta

/-- A value of dynamic type. -/
inductive Datum where
  | null
  | bool (b : Bool)
  | int (n : Int)
  | real (x : Binary64)
  | str (s : String)
  | list (items : List Datum)
  | dict (fields : List (String × Datum))
deriving Repr, Inhabited

namespace Datum

/-- Whether a value is null. -/
def isNull : Datum → Bool
  | null => true
  | _ => false

/-- Whether a value counts as true: all but null, false, zero and what is empty. -/
def truthy : Datum → Bool
  | null => false
  | bool b => b
  | int n => n != 0
  | real x => !x.isZero
  | str s => s != ""
  | list xs => !xs.isEmpty
  | dict fs => !fs.isEmpty

/-- The integer that a truth value or integer stands for in comparisons. -/
def number? : Datum → Option Int
  | bool b => some (if b then 1 else 0)
  | int n => some n
  | _ => none

/-- Whether two atoms are equal; truth values equal the integers zero and one, and a number equals
an integer by its value. -/
def sameAtom (a b : Datum) : Bool :=
  match a.number?, b.number? with
  | some m, some n => m == n
  | ma, mb =>
    match a, b with
    | null, null => true
    | str s, str t => s == t
    | real x, real y => x.same y
    | real x, _ => mb.any x.isInt
    | _, real y => ma.any y.isInt
    | _, _ => false

/-! ## Taking values apart -/

/-- The field of a dictionary value. -/
def field? (d : Datum) (key : String) : Option Datum :=
  match d with
  | dict fs => fs.lookup key
  | _ => none

/-- The field of a dictionary value, or null. -/
def get (d : Datum) (key : String) : Datum := (d.field? key).getD null

/-- The fields of a dictionary value. -/
def fields : Datum → Table Datum
  | dict fs => .ofList fs
  | _ => ∅

/-- The text of a text value. -/
def str? : Datum → Option String
  | str s => some s
  | _ => none

/-- The text of a text value, or the empty text. -/
def strD (d : Datum) : String := d.str?.getD ""

/-- The members of a list value. -/
def items? : Datum → Option (List Datum)
  | list xs => some xs
  | _ => none

/-- The members of a list value, or none. -/
def items (d : Datum) : List Datum := d.items?.getD []

/-- The texts in a list value. -/
def texts (d : Datum) : List String := d.items.map strD

/-- The texts under the keys of a dictionary value. -/
def textTable (d : Datum) : Table String := d.fields.map strD

/-- The integer of an integer or truth value, or zero. -/
def intD (d : Datum) : Int := d.number?.getD 0

/-! ## Putting values together -/

/-- A list of texts. -/
def strs (xs : List String) : Datum := list (xs.map str)

/-- A text or null. -/
def optStr : Option String → Datum
  | some s => str s
  | none => null

/-- A list of texts, some of which may be missing. -/
def optStrs (xs : List (Option String)) : Datum := list (xs.map optStr)

/-- The texts of a table under their keys. -/
def ofTexts (t : Table String) : Datum := dict (t.map str).entries

/-! ## Showing values as text -/

mutual

/-- The value as it is written inside other values: texts are quoted. -/
def repr : Datum → String
  | null => "None"
  | bool true => "True"
  | bool false => "False"
  | int n => toString n
  | real x => x.text
  | str s => Text.quote s
  | list xs => "[" ++ Text.join ", " (reprAll xs) ++ "]"
  | dict fs => "\x7b" ++ Text.join ", " (reprFields fs) ++ "\x7d"

/-- The members of a list, each as it is written inside other values. -/
def reprAll : List Datum → List String
  | [] => []
  | x :: rest => repr x :: reprAll rest

/-- The fields of a dictionary, each as key and value. -/
def reprFields : List (String × Datum) → List String
  | [] => []
  | (k, v) :: rest => (Text.quote k ++ ": " ++ repr v) :: reprFields rest

end

/-- The value as text: a text is itself, anything else is written as inside other values. -/
def text : Datum → String
  | str s => s
  | d => repr d

/-! ## Operations that not every value has -/

mutual

/-- Whether two values are equal; the order of the fields of dictionaries does not count. -/
def same : Datum → Datum → Bool
  | list xs, list ys => sameAll xs ys
  | dict fs, dict gs => fs.length == gs.length && sameFields fs gs
  | a, b => a.sameAtom b

/-- Whether the members of two lists are equal. -/
def sameAll : List Datum → List Datum → Bool
  | [], [] => true
  | x :: xs, y :: ys => same x y && sameAll xs ys
  | _, _ => false

/-- Whether all fields are found among others. -/
def sameFields : List (String × Datum) → List (String × Datum) → Bool
  | [], _ => true
  | (k, v) :: fs, gs => (gs.lookup k).any (same v) && sameFields fs gs

end

/-- The members of a value that is gone through: those of a list, the characters of a text, the keys
of a dictionary. -/
def members : Datum → Except Failure (List Datum)
  | list xs => .ok xs
  | str s => .ok (s.toList.map fun c => str c.toString)
  | dict fs => .ok (fs.map fun (k, _) => str k)
  | _ => .error .wrongType

/-- A value that has to be a text. -/
def needText : Datum → Except Failure String
  | str s => .ok s
  | _ => .error .wrongType

/-- The members of a value, which have to be texts. -/
def needTexts (d : Datum) : Except Failure (List String) := do (← d.members).mapM needText

/-- Whether a text is among the members of a value, or a part of it if the value is a text. -/
def holdsText (d : Datum) (word : String) : Except Failure Bool :=
  match d with
  | str s => .ok (Text.contains s word)
  | _ => do return (← d.members).any (·.sameAtom (str word))

/-- Whether a value is a number that is not below an integer. -/
def isAtLeast (d : Datum) (n : Int) : Except Failure Bool :=
  match d with
  | real (.infinite negative) => .ok !negative
  | real x =>
    match x.quotient? with
    | some (num, den) => .ok (n * den ≤ num)
    | none => .ok false
  | _ =>
    match d.number? with
    | some m => .ok (n ≤ m)
    | none => .error .wrongType

/-- A value that can be looked up: not a collection. -/
def needKey : Datum → Except Failure Datum
  | list _ | dict _ => .error .wrongType
  | d => .ok d

/-- Whether a value is the text of an integer, or a number that has an integer part. -/
def isWhole : Datum → Except Failure Bool
  | str s => .ok (Text.isInteger s)
  | bool _ | int _ => .ok true
  | real .nan => .ok false
  | real (.infinite _) => .error .tooLarge
  | real _ => .ok true
  | _ => .error .wrongType

end Datum

/-- An attribute that has to be there. -/
def Table.attribute (t : Table Datum) (name : String) : Except Failure Datum :=
  match t.get? name with
  | some d => .ok d
  | none => .error .absentAttribute

end BuildMeta
