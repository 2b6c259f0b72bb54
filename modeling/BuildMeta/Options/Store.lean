import BuildMeta.Notice
import BuildMeta.Rule.Basic
import BuildMeta.Shell
import BuildMeta.Table

/-!
# Storing rules

Options are a table of texts.  A rule that applies to the platform and flavour is combined with
the option under its key.  Before that, a shell command written in its value is replaced by what
the command prints; the rule keeps the replaced value, and so it is stored with it the next time.
-/

namespace BuildMeta.Options

/-! ## Commands inside values -/

/-- The text up to the first character `stop`, if it is not empty, and the text after `stop`. -/
def upTo? (stop : Char) (s : List Char) : Option (List Char × List Char) :=
  match s.takeWhile (· != stop), s.dropWhile (· != stop) with
  | front@(_ :: _), _ :: rest => some (front, rest)
  | _, _ => none

/-- The mark before a text substitution. -/
def substitutionMark : List Char := ['$', '(', 's', 'u', 'b', 's', 't', ' ']

/-- Whether a value starts with a text substitution; rules with such values are passed over. -/
def isSubstitution (value : List Char) : Bool :=
  substitutionMark.isPrefixOf value &&
    match upTo? ',' (value.drop 8) with
    | none => false
    | some (_, rest) =>
      match rest.dropWhile (· != ',') with
      | [] => false
      | _ :: last => (upTo? ')' last).isSome

/-- The marks around a command that is written between escaped quotes. -/
def quoteMark : List Char := ['\\', '"', '`']

/-- The mark after a command that is written between escaped quotes. -/
def endQuoteMark : List Char := ['\\', '"']

/-- A command between escaped quotes at the front of a text, with the text after it. -/
def quotedCommandAt? (s : List Char) : Option (List Char × List Char) :=
  if quoteMark.isPrefixOf s then
    match upTo? '`' (s.drop 3) with
    | some (command, rest) =>
      if endQuoteMark.isPrefixOf rest then some (command, rest.drop 2) else none
    | none => none
  else none

/-- The first command between escaped quotes, with the text before and after it. -/
def quotedCommand? : List Char → Option (List Char × List Char × List Char)
  | [] => none
  | c :: rest =>
    match quotedCommandAt? (c :: rest) with
    | some (command, after) => some ([], command, after)
    | none => (quotedCommand? rest).map fun (before, command, after) => (c :: before, command, after)

/-- The mark before the command of a shell call. -/
def callMark : List Char := ['$', '(', 's', 'h', 'e', 'l', 'l']

/-- The command of a value that starts with a shell call. -/
def shellCall? (value : List Char) : Option (List Char) :=
  if callMark.isPrefixOf value then (upTo? ')' (value.drop 7)).map Prod.fst else none

/-- What a command prints, without white space at the end. -/
def printed (shell : Shell) (command : List Char) : Except Failure String := do
  return Text.trimEnd (← shell.run (String.ofList command))

/-- Replaces the first command between escaped quotes by what it prints, in quotes. -/
def expandQuoted (shell : Shell) (value : String) : Except Failure String :=
  match quotedCommand? value.toList with
  | none => .ok value
  | some (before, command, after) => do
    let out ← printed shell command
    return String.ofList before ++ "\"" ++ out ++ "\"" ++ String.ofList after

/-- Replaces a value that starts with a shell call by what the command prints. -/
def expandCall (shell : Shell) (value : String) : Except Failure String :=
  match shellCall? value.toList with
  | none => .ok value
  | some command => printed shell command

/-- Carries out the commands inside a value. -/
def expand (shell : Shell) (value : String) : Except Failure String := do
  expandCall shell (← expandQuoted shell value)

/-! ## Storing -/

/-- Combines a rule with the options. -/
def put (options : Table String) (rule : Rule) : Table String :=
  options.set rule.key <|
    match options.get? rule.key with
    | none => rule.value
    | some old => rule.command.combine old rule.value

/-- The build for which rules are chosen, and the shell that carries out their commands. -/
structure Target where
  uplid : Uplid
  ufid : Ufid
  shell : Shell

/-- Stores one rule; what happens to rules under the watched keys is reported.  The result holds
the options and the rule with its commands carried out. -/
def storeRule (target : Target) (watched : List String) (options : Table String) (rule : Rule) :
    Logged (Table String × Rule) := do
  let report (n : Notice) : Logged Unit :=
    if watched.contains rule.key then Logged.tell n else pure ()
  if !rule.appliesTo target.uplid target.ufid then
    report (.warn ("Ignore: " ++ rule.render))
    return (options, rule)
  report (.info ("Accept: " ++ rule.render))
  if isSubstitution rule.value.toList then
    report (.warn ("Skipping rule: " ++ rule.render))
    return (options, rule)
  let value ← expand target.shell rule.value
  let rule := { rule with value }
  let options := put options rule
  report (.info ("Update: " ++ rule.key ++ " -> " ++ options.getD rule.key "" ++ "\n"))
  return (options, rule)

/-- Stores rules in turn.  The result holds the options and the rules with their commands carried
out. -/
def storeRules (target : Target) (watched : List String) (options : Table String) :
    List Rule → Logged (Table String × List Rule)
  | [] => return (options, [])
  | rule :: rest => do
    let (options, rule) ← storeRule target watched options rule
    let (options, rest) ← storeRules target watched options rest
    return (options, rule :: rest)

end BuildMeta.Options
