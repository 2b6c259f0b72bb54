import BuildMeta.Notice
import BuildMeta.Table

/-!
# Evaluating options

A reference `$(name)` in the text of an option stands for the value of the option `name`, else for
the environment variable of that name, else for nothing.  Evaluation replaces the references by
values; an option that refers to itself, directly or through others, has no value.
-/

namespace BuildMeta.Options

/-- A piece of an option's text. -/
inductive Piece where
  /-- A character that stands for itself. -/
  | char (c : Char)
  /-- A reference. -/
  | ref (name : String)
deriving Repr, BEq, DecidableEq

/-- The name of the reference at the front of a text. -/
def referenceAt? : List Char → Option (List Char)
  | '$' :: '(' :: rest =>
    match rest.takeWhile Text.isWord, rest.dropWhile Text.isWord with
    | name@(_ :: _), ')' :: _ => some name
    | _, _ => none
  | _ => none

/-- The pieces of a text, found from left to right; `skip` characters of a reference are still to be
passed. -/
def piecesFrom : Nat → List Char → List Piece
  | _, [] => []
  | skip + 1, _ :: rest => piecesFrom skip rest
  | 0, c :: rest =>
    match referenceAt? (c :: rest) with
    | some name => .ref (String.ofList name) :: piecesFrom (name.length + 2) rest
    | none => .char c :: piecesFrom 0 rest

/-- The pieces of an option's text. -/
def pieces (text : String) : List Piece := piecesFrom 0 text.toList

/-- The remark on an option that is taken from the environment. -/
def environmentRemark (name : String) : Notice :=
  .warn ("Using the environment variable \"" ++ name ++ "\" as an option key")

/-- Evaluates pieces, given the values known so far, and adds the values met on the way.  `free`
holds the options that are not being evaluated. -/
def evaluatePieces (options environment : Table String) (free : List String) :
    List Piece → Table String → Logged (List Char × Table String)
  | [], results => return ([], results)
  | .char c :: rest, results => do
    let (text, results) ← evaluatePieces options environment free rest results
    return (c :: text, results)
  | .ref name :: rest, results => do
    let (value, results) ←
      match results.get? name with
      | some value => pure (value, results)
      | none =>
        match options.get? name with
        | some text =>
          if _h : name ∈ free then do
            let (value, results) ←
              evaluatePieces options environment (free.erase name) (pieces text) results
            let value := String.ofList value
            pure (value, results.set name value)
          else Logged.fail .endless
        | none =>
          match environment.get? name with
          | some value => do
            Logged.tell (environmentRemark name)
            pure (value, results.set name value)
          | none => pure ("", results)
    let (text, results) ← evaluatePieces options environment free rest results
    return (value.toList ++ text, results)
termination_by pieces => (free.length, pieces.length)
decreasing_by
  all_goals simp_wf
  · simp [Prod.lex_def]
  · simp [Prod.lex_def]
  · have := List.length_erase_of_mem _h
    have := List.length_pos_of_mem _h
    simp [Prod.lex_def]
    omega

/-- Evaluates the options under the keys in turn, reporting the values of the watched ones. -/
def evaluateKeys (options environment : Table String) (watched : List String) :
    List String → Table String → Logged (Table String)
  | [], results => return results
  | key :: rest, results => do
    let (value, results) ←
      evaluatePieces options environment options.keys [.ref key] results
    let results := results.set key (String.ofList value)
    if watched.contains key then
      Logged.tell (.info (key ++ ": " ++ String.ofList value))
    evaluateKeys options environment watched rest results

/-- The values of all options, added to the values known before. -/
def evaluate (options environment : Table String) (watched : List String)
    (results : Table String) : Logged (Table String) :=
  evaluateKeys options environment watched options.keys results

end BuildMeta.Options
