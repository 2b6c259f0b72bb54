import BuildMeta.Pkg.Settings
import BuildMeta.Pkg.Substitute
import BuildMeta.Text.Case

/-!
# Contents of a package file

A package file defines variables (`name=value`) and properties (`Name: value`).  A line that ends in
a backslash goes on in the next, and a hash sign starts a comment.
-/

namespace BuildMeta.Pkg

/-! ## Continued lines -/

/-- Joins continued lines.  `pending` is the text of a line that goes on.  The character before
the continuation mark is dropped with it. -/
def joinFrom (pending : Option (List Char)) : List (List Char) → Except Failure (List (List Char))
  | [] => if pending.isSome then .error .outOfRange else .ok []
  | line :: rest =>
    let text := pending.getD [] ++ Text.trimEndWhile Text.isBlank line
    if text.isEmpty then joinFrom none rest
    else if text.getLast? == some '\\' then
      joinFrom (some (text.take (text.length - 2) ++ [' '])) rest
    else do return text :: (← joinFrom none rest)

/-- Joins continued lines; the last line cannot go on. -/
def joinLines (lines : List String) : Except Failure (List String) := do
  match lines.getLast?.bind (·.toList.getLast?) with
  | none => throw .outOfRange
  | some '\\' => throw .undefinedName
  | some _ => return (← joinFrom none (lines.map String.toList)).map String.ofList

/-! ## Lines -/

/-- What a line of a package file says. -/
inductive Line where
  | property (key : String) (value : Option String)
  | variable (key value : String)
  /-- A line of no known form. -/
  | other
deriving Repr, BEq, DecidableEq, Inhabited

/-- A line without its comment and the blanks around it. -/
def bareLine (line : String) : String := Text.trim (Text.before '#' line)

/-- Reads a bare line. -/
def Line.parse (line : String) : Line :=
  let key := line.toList.takeWhile isVariableChar
  let rest := line.toList.drop key.length
  let value := ((rest.drop 1).dropWhile Text.isBlank).takeWhile (· != '\n')
  if key.isEmpty then .other
  else
    match rest with
    | ':' :: _ => .property (String.ofList key)
        (if value.isEmpty then none else some (String.ofList value))
    | '=' :: _ => .variable (String.ofList key) (String.ofList value)
    | _ => .other

/-! ## Contents -/

/-- The variables and properties of a package file. -/
structure Contents where
  /-- Variables as they are written. -/
  rawVariables : Table String := ∅
  /-- Variables with their references replaced. -/
  vars : Table String := ∅
  properties : Table String
  /-- The keys of the properties met, as they are written. -/
  seen : List String := []
deriving Repr, Inhabited

namespace Contents

/-- The variables and properties by name. -/
def view (c : Contents) : List (String × Datum) :=
  [("raw", .ofTexts c.rawVariables), ("vars", .ofTexts c.vars), ("props", .ofTexts c.properties)]

/-- The known properties. -/
def propertyNames : List String :=
  ["name", "description", "url", "version", "requires", "requires.private", "conflicts", "cflags",
    "libs", "libs.private"]

/-- The contents of a file without lines. -/
def empty : Contents := { properties := .ofList (propertyNames.map fun n => (n, "")) }

/-- The printer of messages about a file. -/
def printer (s : Settings) (file : Option String) : Printer :=
  { settings := s
    vars := match file with
      | some path => .ofList [("filename", .str path)]
      | none => ∅ }

/-- Adds what a bare line says. -/
def addLine (s : Settings) (file : Option String) (globals : Table String) (c : Contents)
    (line : String) : Logged Contents :=
  if line == "" then pure c
  else
    match Line.parse line with
    | .variable key value => do
      if c.vars.has key then .fail (.multiplyDefined key)
      let shared := globals.get? key
      s.debug ("Adding " ++ key ++ " -> " ++ value ++ " to vars" ++
        (if shared.isSome then " from globals" else ""))
      let text := Text.trim value
      let replaced ← substitute (shared.getD text) c.vars globals
      return { c with
        rawVariables := c.rawVariables.set key text, vars := c.vars.set key replaced }
    | .property key value => do
      if c.seen.contains key then .fail (.multiplyDefined key)
      let name := Text.lower key
      if propertyNames.contains name then
        let text := value.getD ""
        s.debug ("Adding " ++ key ++ " -> " ++ text ++ " to props")
        return { c with properties := c.properties.set name text, seen := c.seen ++ [key] }
      (printer s file).errorIf "debug" (.str "Unknown key/value in %(filename)s:\n%s: %s")
        (some (.several [.str key, .optStr value]))
      return c
    | .other => do
      (printer s file).errorIf "debug" (.str ("Malformed line: " ++ line)) none
      return c

/-- Reads the lines of a package file. -/
def ofLines (s : Settings) (file : Option String) (globals : Table String) (lines : List String) :
    Logged Contents := do
  (← joinLines lines).foldlM (fun c line => addLine s file globals c (bareLine line)) empty

end Contents

end BuildMeta.Pkg
