import BuildMeta.Build.Event
import BuildMeta.Text.Format

/-!
# Build sessions

The state in which the steps of a build run: the variables of the build tool, the environment of the
process and the events so far.  A failing step leaves the state as it was when it failed.
-/

namespace BuildMeta.Build

/-- The variables of the build tool. -/
abbrev Variables := Table Datum

namespace Variables

/-- The value of a variable; an unset one is an empty list. -/
def value (v : Variables) (name : String) : Datum :=
  match v.get? name with
  | none | some .null => .list []
  | some d => d

/-- The texts that are found in a variable when it is gone through. -/
def texts (v : Variables) (name : String) : Except Failure (List String) := (v.value name).needTexts

/-- The text of a variable. -/
def text (v : Variables) (name : String) : String := (v.value name).text

/-- Gives a variable a value. -/
def put (v : Variables) (name : String) (value : Datum) : Variables := v.set name value

/-- Gives a variable a list of words. -/
def putWords (v : Variables) (name : String) (words : List String) : Variables :=
  v.put name (.strs words)

/-- The template that a variable holds, filled with a value. -/
def fill (v : Variables) (name : String) (value : Datum) : Except Failure String :=
  match v.value name with
  | .str template => Text.format template (.single value)
  | _ => .error .wrongType

/-- Adds words to a variable; a value that is not a list becomes the first member of one. -/
def append (v : Variables) (name : String) (words : List String) : Variables :=
  let members := match v.get? name with
    | none => []
    | some (.list xs) => xs
    | some d => [d]
  v.put name (.list (members ++ words.map .str))

/-- Adds values to the end of a variable, which has to hold a list. -/
def extend (v : Variables) (name : String) (values : List Datum) : Except Failure Variables :=
  match v.value name with
  | .list xs => .ok (v.put name (.list (xs ++ values)))
  | _ => .error .absentAttribute

/-- Empties a variable. -/
def clear (v : Variables) (name : String) : Variables := v.put name (.list [])

end Variables

/-- The state of a build. -/
structure Session where
  vars : Variables
  environment : Table String
  /-- The events, newest first. -/
  newest : List Event := []
  /-- The files written so far. -/
  written : Table String := ∅
deriving Inhabited

/-- The events in order. -/
def Session.events (s : Session) : List Event := s.newest.reverse

/-- A step of a build. -/
abbrev Step := ExceptT Failure (StateM Session)

namespace Step

/-- Records an event. -/
def record (e : Event) : Step Unit := modify fun s => { s with newest := Event.push e s.newest }

/-- Says one thing to the user. -/
def say (n : Notice) : Step Unit := record (.notice n)

/-- Runs a logged operation as a step. -/
def ofLogged {α : Type} (x : Logged α) : Step α := do
  x.notices.forM say
  match x.outcome with
  | .ok a => return a
  | .error e => throw e

instance : MonadLift Logged Step := ⟨ofLogged⟩

/-- Gives the build up with a text. -/
def fatal {α : Type} (text : String) : Step α := throw (.fatal text)

/-- The variables of the build tool. -/
def vars : Step Variables := return (← get).vars

/-- Changes the variables of the build tool. -/
def change (f : Variables → Variables) : Step Unit :=
  modify fun s => { s with vars := f s.vars }

/-- A variable of the process, unless it is unset or empty. -/
def setting? (name : String) : Step (Option String) := do
  return ((← get).environment.get? name).filter (· != "")

/-- Runs a step, with failures put into other words. -/
def rewording {α : Type} (f : Failure → Failure) (x : Step α) : Step α :=
  tryCatch x fun e => throw (f e)

/-- Runs a step from a state. -/
def runFrom {α : Type} (s : Session) (x : Step α) : Except Failure α × Session := StateT.run x.run s

end Step

end BuildMeta.Build
