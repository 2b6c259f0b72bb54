import BuildMeta.Build.Event

/-!
# Commands of a build

Runs the commands of the build tool.  What a command prints is shown under the name of the file that
it works on; a command line that is too long is put into a file.
-/

namespace BuildMeta.Build

/-- A command line: a text for the shell, or words. -/
inductive CommandText where
  | shell (text : String)
  | words (words : List String)
deriving Repr, BEq, DecidableEq, Inhabited

/-- How a command ends. -/
inductive CommandEnd where
  /-- It could not be started. -/
  | notStarted (reason : String)
  /-- It ended with a status, and printed on the two streams. -/
  | ended (status : Int) (out err : String)
deriving Repr, BEq, DecidableEq, Inhabited

/-- The files that a task works on. -/
structure TaskFiles where
  inputs : List String
  outputs : List String
deriving Repr, Inhabited

namespace TaskFiles

/-- Whether what a successful command prints is no more than the name of its source, or the remark
of a linker on its import library. -/
def isIdleTalk (f : TaskFiles) (text : String) : Except Failure Bool :=
  match f.inputs with
  | [] => .error .outOfRange
  | input :: _ =>
    .ok (Text.trim text == input || Text.startsWith (Text.trim text) "Creating library ")

/-- The file that stands for the task. -/
def subject (f : TaskFiles) : Except Failure String :=
  match f.inputs, f.outputs with
  | [input], _ => .ok input
  | _ :: _ :: _, output :: _ => .ok output
  | _, _ => .error .outOfRange

end TaskFiles

/-- What a command printed, under the name of its file. -/
def report (marks : Palette) (subject : String) (status : Int) (text : String) : String :=
  let color := marks (if status == 0 then .yellow else .red)
  color ++ "[" ++ subject ++ " (" ++ (if status == 0 then "WARNING" else "ERROR") ++
    ")] <<<<<<<<<<" ++ marks .normal ++ "\n" ++ text ++ color ++ ">>>>>>>>>>" ++ marks .normal

/-- What is said about a command that ended, and its status. -/
def CommandEnd.result (marks : Palette) (f : TaskFiles) : CommandEnd → Logged Int
  | .notStarted reason => Logged.fail (.notExecuted reason)
  | .ended status out err => do
    let text := out ++ err
    if text == "" then return status
    if status == 0 && (← f.isIdleTalk text) then return status
    Logged.tell (.info (report marks (← f.subject) status text))
    return status

/-! ## Long command lines -/

/-- The length from which a command line is too long. -/
def longLine : Nat := 8192

/-- The beginnings of a word after which its quotes open. -/
def quoteAfter : List String := ["/LIBPATH:", "/IMPLIB:", "/OUT:", "/I"]

/-- A word in quotes, if it holds a blank. -/
def quoteWord (word : String) : String :=
  if !Text.contains word " " then word
  else
    let front := (quoteAfter.find? (Text.startsWith word)).getD ""
    front ++ "\"" ++ Text.drop front.length word ++ "\""

/-- The text of a file with words of a command line. -/
def wordFile (words : List String) : String :=
  Text.join "\r\n" (words.map fun w => Text.replace (quoteWord w) "\\" "\\\\")

/-- The command line to be run on a platform, with the text of the file that it reads if it is too
long, given the path for such a file. -/
def shorten (platform path : String) : CommandText → CommandText × Option String
  | .words (program :: rest) =>
    if Text.startsWith platform "win" && longLine ≤ (Text.join " " (program :: rest)).length then
      (.words [program, "@" ++ path], some (wordFile rest))
    else (.words (program :: rest), none)
  | c => (c, none)

end BuildMeta.Build
