import BuildMeta.Rule.Basic

/-!
# The form of a rule line

A rule line reads `[command] platform flavour key = value`, separated by white space.  The command
may be missing, and may touch the platform.  The key is the third word if an equals sign follows
it; otherwise the word is cut at its last equals sign.  A backslash at the end of a line says that
the value goes on in the next line.
-/

namespace BuildMeta.Rule

/-- The parts of a rule line, as texts. -/
structure LineForm where
  command : Command
  uplid : String
  ufid : String
  key : String
  value : String
  continued : Bool
deriving Repr, BEq, DecidableEq

/-- Whether a line is blank or a comment. -/
def isCommentLine (line : List Char) : Bool :=
  match line.dropWhile Text.isBlank with
  | [] => true
  | c :: _ => c == '#'

/-- The text of a line without the backslash that ends it, and whether there was one. -/
def cutContinuation (line : List Char) : List Char × Bool :=
  match line.getLast? with
  | some '\\' => (line.dropLast, true)
  | _ => (line, false)

/-- The word at the front of a text, and what follows it. -/
def word (s : List Char) : List Char × List Char :=
  (s.takeWhile (fun c => !Text.isBlank c), s.dropWhile (fun c => !Text.isBlank c))

/-- Cuts a word at its last equals sign, if a key stands before it. -/
def cutAtLastEquals (w : List Char) : Option (List Char × List Char) :=
  let after := (w.reverse.takeWhile (· != '=')).reverse
  let key := w.take (w.length - after.length - 1)
  if after.length < w.length && !key.isEmpty then some (key, after) else none

/-- Reads platform, flavour, key and the text after the equals sign. -/
def fields? (s : List Char) : Option (List Char × List Char × List Char × List Char) :=
  let (uplid, s) := word (s.dropWhile Text.isBlank)
  let (ufid, s) := word (s.dropWhile Text.isBlank)
  let (third, s) := word (s.dropWhile Text.isBlank)
  if uplid.isEmpty || ufid.isEmpty || third.isEmpty then none
  else match s.dropWhile Text.isBlank with
    | '=' :: value => some (uplid, ufid, third, value)
    | _ => (cutAtLastEquals third).map fun (key, after) => (uplid, ufid, key, after ++ s)

/-- The command at the front of a text, and what follows it. -/
def commandAt? (s : List Char) : Option (Command × List Char) :=
  (Command.all.find? fun c => c.render.toList.isPrefixOf s).map fun c => (c, s.drop 2)

/-- Reads a rule line that has the given command. -/
def formWith (command : Command) (s : List Char) : Option LineForm :=
  (fields? s).map fun (uplid, ufid, key, value) =>
    let (value, continued) := cutContinuation (value.dropWhile Text.isBlank)
    { command, continued
      uplid := String.ofList uplid
      ufid := String.ofList ufid
      key := String.ofList key
      value := String.ofList value }

/-- Reads a rule line.  Where it cannot be read with the command at its front, the command
characters belong to the platform. -/
def lineForm? (line : String) : Option LineForm :=
  let s := line.toList.dropWhile Text.isBlank
  match commandAt? s with
  | some (c, rest) => formWith c rest <|> formWith .add s
  | none => formWith .add s

end BuildMeta.Rule
