import BuildMeta.Uplid
import BuildMeta.Ufid

/-!
# Option rules

A rule contributes a text to the option under its key, on the platforms and flavours that satisfy
its masks.  The command says how the text is combined with what the option already holds.
-/

namespace BuildMeta

/-- How a rule's text is combined with the text that an option already holds. -/
inductive Command where
  /-- After the old text, with a blank between. -/
  | add
  /-- Before the old text, with a blank between. -/
  | insert
  /-- Directly after the old text. -/
  | append
  /-- Directly before the old text. -/
  | prepend
  /-- In place of the old text. -/
  | override
deriving Repr, BEq, DecidableEq, Inhabited

namespace Command

/-- All commands, in the order of their numbers. -/
def all : List Command := [add, insert, append, prepend, override]

/-- The number of a command. -/
def code : Command → Nat
  | add => 0
  | insert => 1
  | append => 2
  | prepend => 3
  | override => 4

/-- The two characters that stand for a command. -/
def render : Command → String
  | add => "++"
  | insert => "--"
  | append => ">>"
  | prepend => "<<"
  | override => "!!"

/-- The command that a text stands for. -/
def parse (s : String) : Except Failure Command :=
  match all.find? (·.render == s) with
  | some c => .ok c
  | none => .error .unknownCommand

/-- The command with a number. -/
def ofCode (n : Int) : Except Failure Command :=
  match all.find? (fun c => Int.ofNat c.code == n) with
  | some c => .ok c
  | none => .error .unknownCommand

/-- Combines the text of a rule with the text of an option. -/
def combine (c : Command) (old new : String) : String :=
  match c with
  | add => if old == "" then new else old ++ " " ++ new
  | insert => if old == "" then new else new ++ " " ++ old
  | append => old ++ new
  | prepend => new ++ old
  | override => new

end Command

/-- An option rule. -/
structure Rule where
  command : Command
  uplid : Uplid
  ufid : Ufid
  key : String
  value : String
deriving Repr, BEq, DecidableEq, Inhabited

namespace Rule

/-- The rule in one line, as it is named in reports. -/
def render (r : Rule) : String :=
  Text.join " " [r.command.render, r.uplid.render, r.ufid.render, r.key, r.value]

/-- The parts of a rule by name. -/
def view (r : Rule) : Datum :=
  .dict [("command", .int r.command.code), ("uplid", .str r.uplid.render), ("ufid", r.ufid.view),
    ("key", .str r.key), ("value", .str r.value)]

/-- Whether a rule applies to a platform and flavour. -/
def appliesTo (r : Rule) (uplid : Uplid) (ufid : Ufid) : Bool :=
  uplid.satisfies r.uplid && ufid.satisfies r.ufid

end Rule

end BuildMeta
