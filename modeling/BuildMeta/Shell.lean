import BuildMeta.Failure
import BuildMeta.Table

/-!
# The shell

The answers of a shell to commands, as a function of the command text.
-/

namespace BuildMeta

/-- What a shell prints for a command, or why the command cannot be started. -/
def Shell := String → Except String String

namespace Shell

/-- Runs a command; that it cannot be started is a failure of its own kind. -/
def run (shell : Shell) (command : String) : Except Failure String :=
  (shell command).mapError .cannotRun

/-- A shell with fixed answers.  An unknown command prints nothing, and one listed without an
answer cannot be started. -/
def ofTable (answers : Table (Option String)) : Shell := fun command =>
  match answers.get? command with
  | some (some answer) => .ok answer
  | some none => .error ("cannot run " ++ command)
  | none => .ok ""

/-- Drops command substitutions from the text of a command; `depth` brackets are open. -/
def dropSubstitutions : Nat → List Char → List Char
  | _, [] => []
  | 0, '$' :: '(' :: rest => dropSubstitutions 1 rest
  | 0, c :: rest => c :: dropSubstitutions 0 rest
  | depth + 1, c :: rest =>
    if c == '(' then dropSubstitutions (depth + 2) rest
    else if c == ')' then dropSubstitutions depth rest
    else dropSubstitutions (depth + 1) rest

/-- A shell that knows only the command `echo`, which prints its words.  Substituted commands are
unknown and print nothing. -/
def echo : Shell := fun command =>
  .ok (Text.join " " ((Text.words (String.ofList (dropSubstitutions 0 command.toList))).drop 1)
    ++ "\n")

end Shell

end BuildMeta
