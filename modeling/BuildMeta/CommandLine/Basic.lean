import BuildMeta.Datum
import BuildMeta.Text.Case

/-!
# Command lines

The switches that a program accepts on its command line.  A switch has short names of one letter
after a hyphen and long names after two hyphens; it sets the value under its key.
-/

namespace BuildMeta.CommandLine

/-- What a switch does. -/
inductive Action where
  /-- It stores the text that follows. -/
  | text
  /-- It stores the integer that follows. -/
  | integer
  /-- It stores the text that follows, which must be among the values. -/
  | choice (values : List (Option String))
  /-- It adds the text that follows to a list. -/
  | collect
  /-- It stores a truth value. -/
  | flag (value : Bool)
  /-- It prints the help text and ends the program. -/
  | help
  /-- It prints the version and ends the program. -/
  | version (text : String)
deriving Repr, BEq, DecidableEq, Inhabited

/-- A switch of a program. -/
structure Switch where
  names : List String
  action : Action := .text
  help : String := ""
  /-- The value before the command line is read; without one it is null, unless an earlier switch
  with the same key says otherwise. -/
  start : Option Datum := none
  /-- The key to use in place of the one that the names give. -/
  target : Option String := none
deriving Repr, Inhabited

namespace Switch

/-- Whether a name is a long one. -/
def isLong (name : String) : Bool := Text.startsWith name "--"

/-- The long names of a switch. -/
def longNames (s : Switch) : List String := s.names.filter isLong

/-- The short names of a switch. -/
def shortNames (s : Switch) : List String := s.names.filter (!isLong ·)

/-- The key under which the value is stored: the first long name, else the first short one, with
underscores for hyphens. -/
def key (s : Switch) : String :=
  s.target.getD <|
    match s.longNames, s.shortNames with
    | name :: _, _ => Text.replaceChar '-' '_' (Text.drop 2 name)
    | [], name :: _ => Text.drop 1 name
    | [], [] => ""

/-- Whether a value follows the switch. -/
def takesValue (s : Switch) : Bool :=
  match s.action with
  | .text | .integer | .choice _ | .collect => true
  | .flag _ | .help | .version _ => false

/-- Whether the switch stores a value at all. -/
def stores (s : Switch) : Bool :=
  match s.action with
  | .help | .version _ => false
  | _ => true

end Switch

/-- The switch that prints the help text. -/
def helpSwitch : Switch :=
  { names := ["-h", "--help"], action := .help, help := "show this help message and exit" }

/-- The switch that prints the version of the program. -/
def versionSwitch (text : String) : Switch :=
  { names := ["--version"], action := .version text
    help := "show program's version number and exit" }

/-- A program with a command line. -/
structure Program where
  name : String
  usage : String
  switches : List Switch
  /-- Further switches under a heading. -/
  groups : List (String × List Switch) := []
deriving Repr, Inhabited

namespace Program

/-- All switches of a program. -/
def allSwitches (p : Program) : List Switch := p.switches ++ p.groups.flatMap Prod.snd

/-- The values before the command line is read. -/
def startValues (p : Program) : Table Datum :=
  (p.allSwitches.filter Switch.stores).foldl (fun t s =>
    match s.start with
    | some v => t.set s.key v
    | none => if t.has s.key then t else t.set s.key .null) ∅

end Program

end BuildMeta.CommandLine
