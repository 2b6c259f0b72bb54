import BuildMeta.Pkg.Version

/-!
# Requirements

A requirement names a package, and may bound its version by a relation.  Lists of requirements are
written with blanks or commas between them.
-/

namespace BuildMeta.Pkg

/-- How the version of a package relates to the required one. -/
inductive Relation where
  | less
  | lessOrEqual
  | equal
  | greaterOrEqual
  | greater
  | notEqual
  /-- Any version will do. -/
  | any
deriving Repr, BEq, DecidableEq, Inhabited

namespace Relation

/-- All relations with their texts, in the order of their codes. -/
def table : List (Relation × String) :=
  [(less, "<"), (lessOrEqual, "<="), (equal, "="), (greaterOrEqual, ">="), (greater, ">"),
    (notEqual, "!="), (any, " any ")]

/-- The code of a relation. -/
def code (r : Relation) : Nat := table.findIdx (·.1 == r)

/-- The relation with a code. -/
def ofCode (n : Int) : Except Failure Relation :=
  match n with
  | .ofNat k =>
    match table[k]? with
    | some (r, _) => .ok r
    | none => .error (.badOperator (toString n))
  | .negSucc _ => .error (.badOperator (toString n))

/-- The text of a relation. -/
def render (r : Relation) : String := (table.lookup r).getD ""

/-- Reads a relation; no text stands for any version. -/
def parse (text : String) : Except Failure Relation :=
  if text == "" then .ok any
  else
    match (table.dropLast).find? (·.2 == text) with
    | some (r, _) => .ok r
    | none => .error (.badOperator text)

/-- Whether a relation accepts the outcome of a comparison. -/
def accepts : Relation → Ordering → Bool
  | less, o => o == .lt
  | lessOrEqual, o => o != .gt
  | equal, o => o == .eq
  | greaterOrEqual, o => o != .lt
  | greater, o => o == .gt
  | notEqual, o => o != .eq
  | any, _ => true

end Relation

/-- A package that is required, with a bound on its version. -/
structure Requirement where
  name : String
  relation : Relation
  version : Version
deriving Repr, BEq, DecidableEq, Inhabited

namespace Requirement

/-- Whether a version meets a requirement.  The relation "greater" is not supported. -/
def metBy (r : Requirement) (version : Version) : Except Failure Bool :=
  match r.relation with
  | .any => .ok true
  | .greater => .error .undefinedName
  | relation => relation.accepts <$> version.compare r.version

/-- The text of a requirement; an empty version is not written. -/
def render (r : Requirement) : Except Failure String := do
  if ← r.version.isEmpty then return r.name
  return r.name ++ r.relation.render ++ r.version.raw

/-- Whether two requirements ask for the same. -/
def same (a b : Requirement) : Except Failure Bool := do
  if a.name == b.name && a.relation == b.relation then
    return (← a.version.compare b.version) == .eq
  return false

/-- The attributes of a requirement; its text may be the failure to write it. -/
def view (r : Requirement) (text : Datum) : Datum :=
  .dict [("name", .str r.name), ("operator", .int r.relation.code), ("version", r.version.view),
    ("str", text)]

/-! ## Reading lists of requirements -/

/-- A requirement as it is written: name, relation and version. -/
structure Spec where
  name : List Char
  relation : List Char := []
  version : List Char := []
deriving Repr, BEq, DecidableEq, Inhabited

/-- Whether a character belongs to a relation. -/
def isRelationChar (c : Char) : Bool := ['!', '=', '<', '>'].contains c

/-- Whether a name may hold a character. -/
def isNameChar (c : Char) : Bool := !Text.isBlank c && c != ',' && !isRelationChar c

/-- Whether a version may hold a character. -/
def isVersionChar (c : Char) : Bool := !Text.isBlank c && c != ','

/-- The relation and version after a name, and how much text they take.  Where no version follows
a relation of several characters, the last of them is taken for the version. -/
def bound (s : List Char) : List Char × List Char × Nat :=
  let lead := s.takeWhile Text.isBlank
  let relation := (s.drop lead.length).takeWhile isRelationChar
  let after := s.drop (lead.length + relation.length)
  let gap := after.takeWhile Text.isBlank
  let version := (after.drop gap.length).takeWhile isVersionChar
  if relation.isEmpty then ([], [], 0)
  else if !version.isEmpty then
    (relation, version, lead.length + relation.length + gap.length + version.length)
  else if relation.length > 1 then
    (relation.dropLast, relation.drop (relation.length - 1), lead.length + relation.length)
  else ([], [], 0)

/-- The specs in a text.  `skip` characters belong to the spec read last. -/
def specsFrom : Nat → List Char → List Spec
  | _, [] => []
  | skip + 1, _ :: rest => specsFrom skip rest
  | 0, c :: rest =>
    if isNameChar c then
      let tail := rest.takeWhile isNameChar
      let (relation, version, length) := bound (rest.drop tail.length)
      { name := c :: tail, relation, version } :: specsFrom (tail.length + length) rest
    else specsFrom 0 rest

/-- The specs in a text. -/
def specs (text : String) : List Spec := specsFrom 0 text.toList

/-- The requirement that a spec states. -/
def ofSpec (s : Spec) : Except Failure Requirement := do
  let relation ← Relation.parse (String.ofList s.relation)
  let version := if s.version.isEmpty then Version.none
    else Version.parse (String.ofList s.version)
  return { name := String.ofList s.name, relation, version }

/-- Reads a list of requirements. -/
def parseAll (text : String) : Except Failure (List Requirement) := (specs text).mapM ofSpec

end Requirement

end BuildMeta.Pkg
