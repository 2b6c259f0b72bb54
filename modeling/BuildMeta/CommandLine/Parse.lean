import BuildMeta.CommandLine.Help
import BuildMeta.Notice
import BuildMeta.Text.Integer

/-!
# Reading a command line

Switches and other words may mix; two hyphens alone end the switches.  A long name may be cut short
as long as it stays the front of one name only.
-/

namespace BuildMeta.CommandLine

/-- A command line that was read: the values of the switches and the other words. -/
structure Parsed where
  values : Table Datum
  words : List String
deriving Repr, Inhabited

namespace Program

/-- Ends the program over a wrong command line. -/
def misused {α : Type} (p : Program) (text : String) : Logged α :=
  ⟨[.err (p.usageLine ++ "\n" ++ p.name ++ ": error: " ++ text ++ "\n")], .error (.stopped 2)⟩

/-- Ends the program after it has printed a text. -/
def shown {α : Type} (text : String) : Logged α := ⟨[.out text], .error (.stopped 0)⟩

/-- How a choice is written in a message. -/
def choiceText : Option String → String
  | some s => Text.quote s
  | none => "None"

/-- The values after a switch has been met under a name, with the text that follows it. -/
def store (p : Program) (s : Switch) (name value : String) (values : Table Datum) :
    Logged (Table Datum) :=
  match s.action with
  | .text => pure (values.set s.key (.str value))
  | .integer =>
    match Text.literalInteger? value with
    | some n => pure (values.set s.key (.int n))
    | none => p.misused ("option " ++ name ++ ": invalid integer value: " ++ Text.quote value)
  | .choice choices =>
    if choices.contains (some value) then pure (values.set s.key (.str value))
    else p.misused ("option " ++ name ++ ": invalid choice: " ++ Text.quote value ++
      " (choose from " ++ Text.join ", " (choices.map choiceText) ++ ")")
  | .collect =>
    pure (values.set s.key (.list ((values.getD s.key .null).items ++ [.str value])))
  | .flag b => pure (values.set s.key (.bool b))
  | .help => shown p.help
  | .version text => shown (text ++ "\n")

/-- The switch with a long name, and the full name, when the name may be cut short. -/
def findLong (p : Program) (name : String) : Logged (Switch × String) :=
  let all := p.allSwitches.flatMap fun s => s.longNames.map fun n => (n, s)
  match all.lookup name with
  | some s => pure (s, name)
  | none =>
    match all.filter fun (n, _) => Text.startsWith n name with
    | [] => p.misused ("no such option: " ++ name)
    | [(n, s)] => pure (s, n)
    | several => p.misused ("ambiguous option: " ++ name ++ " (" ++
        Text.join ", " (Text.sort (several.map Prod.fst)) ++ "?)")

/-- Splits a word at its first equals sign. -/
def atEquals (word : String) : String × Option String :=
  let name := word.toList.takeWhile (· != '=')
  match word.toList.drop name.length with
  | _ :: value => (String.ofList name, some (String.ofList value))
  | [] => (word, none)

/-- Reads letters of short switches.  A switch that waits for its value is returned. -/
def readShort (p : Program) (values : Table Datum) :
    List Char → Logged (Table Datum × Option (Switch × String))
  | [] => pure (values, none)
  | c :: rest =>
    let name := String.ofList ['-', c]
    match p.allSwitches.find? (·.names.contains name) with
    | none => p.misused ("no such option: " ++ name)
    | some s =>
      if s.takesValue then
        if rest.isEmpty then pure (values, some (s, name))
        else do return (← p.store s name (String.ofList rest) values, none)
      else do readShort p (← p.store s name "" values) rest

/-- Reads a long switch.  A switch that waits for its value is returned. -/
def readLong (p : Program) (values : Table Datum) (word : String) :
    Logged (Table Datum × Option (Switch × String)) := do
  let (name, value?) := atEquals word
  let (s, full) ← p.findLong name
  match s.takesValue, value? with
  | true, some value => return (← p.store s full value values, none)
  | true, none => return (values, some (s, full))
  | false, some _ => p.misused (full ++ " option does not take a value")
  | false, none => return (← p.store s full "" values, none)

/-- Reads the words of a command line.  A switch may be waiting for its value. -/
def readWords (p : Program) (values : Table Datum) (words : List String)
    (waiting : Option (Switch × String)) : List String → Logged Parsed
  | [] =>
    match waiting with
    | some (_, name) => p.misused (name ++ " option requires 1 argument")
    | none => pure { values, words }
  | word :: rest =>
    match waiting with
    | some (s, name) => do readWords p (← p.store s name word values) words none rest
    | none =>
      if word == "--" then pure { values, words := words ++ rest }
      else if Switch.isLong word then do
        let (values, waiting) ← p.readLong values word
        readWords p values words waiting rest
      else if Text.startsWith word "-" && word.length > 1 then do
        let (values, waiting) ← p.readShort values (word.toList.drop 1)
        readWords p values words waiting rest
      else readWords p values (words ++ [word]) none rest

/-- Reads a command line. -/
def parse (p : Program) (words : List String) : Logged Parsed :=
  p.readWords p.startValues [] none words

end Program

end BuildMeta.CommandLine
