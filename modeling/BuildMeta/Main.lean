import BuildMeta.EnvCommand
import BuildMeta.Pkg.Command
import BuildMeta.Rule.Format
import BuildMeta.TestRun.Command

/-!
# Command lines

One program with a command for each tool of the library.  The commands themselves are pure; here
their inputs are read and their notices written.  No process is started: the files that a command
may look at, and the results of the processes of a test run, are named on standard input.
-/

namespace BuildMeta.Main

/-- The text of a stream up to its end. -/
partial def readAll (stream : IO.FS.Stream) : IO String := do
  let line ← stream.getLine
  if line == "" then return ""
  return line ++ (← readAll stream)

/-- The text of a file, if it can be read. -/
def readFile? (path : String) : IO (Option String) :=
  try some <$> IO.FS.readFile path catch _ => pure none

/-- The files that are named on standard input, one in a line. -/
def namedFiles (stream : IO.FS.Stream) : IO FileTree := do
  let paths := (Text.lines (← readAll stream)).map Text.trim
  let files ← paths.mapM fun path => do
    return (← readFile? path).map fun text => (path, text)
  return FileTree.build "/" (.ofList (files.filterMap id)) []

/-- The variables of the environment that the commands look at. -/
def environment : IO (Table String) := do
  let names := ["HOME", "PATH", "PREFIX", "BDE_ROOT", "BDE_WAF_EXTRA_PKG_CONFIG_PATH",
    "HOST", "PKG_CONFIG_PATH", "PKG_CONFIG_LIBDIR", "PKG_CONFIG_SYSROOT_DIR",
    "PKG_CONFIG_TOP_BUILD_DIR", "PKG_CONFIG_DISABLE_UNINSTALLED", "C_INCLUDE_PATH",
    "CPLUS_INCLUDE_PATH", "PKG_CONFIG_ALLOW_SYSTEM_CFLAGS", "PKG_CONFIG_ALLOW_SYSTEM_LIBS"]
  let values ← names.mapM fun name => do
    return (← IO.getEnv name).map fun value => (name, value)
  return .ofList (values.filterMap id)

/-- The machine, as its kernel describes it. -/
def host : IO Host := do
  let fact (name start : String) : IO String := do
    return ((← readFile? ("/proc/sys/kernel/" ++ name)).map Text.trim).getD start
  return { system := ← fact "ostype" "Linux", release := ← fact "osrelease" "0"
           version := ← fact "version" "", processor := ← fact "arch" "x86_64"
           node := ← fact "hostname" "localhost", shell := Shell.echo }

/-- The result of a process, from a line that holds its exit status and what it printed. -/
def attempt (line : String) : TestRun.Attempt :=
  let status := Text.before ' ' line
  match Text.integer? status with
  | some n => .ended n (.ofText (Text.drop (status.length + 1) line)) none
  | none => .notStarted line

/-- Writes what a command says and returns its exit status. -/
def finish (x : Logged Nat) : IO UInt32 := do
  for notice in x.notices do
    let stream ← match notice.channel with
      | .out => IO.getStdout
      | .err => IO.getStderr
    stream.putStr notice.text
  match x.outcome with
  | .ok status | .error (.stopped status) => return status.toUInt32
  | .error e =>
    IO.eprintln e.message
    return 1

/-- Tells how the program is called. -/
def usage : Logged Nat := do
  Logged.tell (.err "usage: buildmeta (set-env | run-test | pkg-config | format-rules) [words]\n")
  return 2

/-- Runs the command that the first word names. -/
def run (words : List String) : IO UInt32 := do
  let stdin ← IO.getStdin
  match words with
  | "set-env" :: rest =>
    finish (EnvCommand.run (← host) (← environment) (← namedFiles stdin) rest)
  | "pkg-config" :: rest =>
    let path : Pkg.SearchPath := { environment := ← environment, toolPrefix := "/usr" }
    finish (Pkg.Command.run { tree := ← namedFiles stdin, path } rest)
  | "run-test" :: rest =>
    let attempts := (Text.lines (← readAll stdin)).map attempt
    finish (TestRun.command (← host) (← environment) (FileTree.build "/" ∅ []) rest attempts).2
  | "format-rules" :: rest =>
    let text ← readAll stdin
    finish (do Rule.format rest text; return 0)
  | _ => finish usage

end BuildMeta.Main

/-- The program. -/
def main (words : List String) : IO UInt32 := BuildMeta.Main.run words
