import BuildMeta.Path
import BuildMeta.Path.Style
import BuildMeta.Shell
import BuildMeta.Text.Case
import BuildMeta.Text.Pattern.Match
import BuildMeta.Text.Pattern.Reader
import BuildMeta.Uplid
import BuildMeta.FileTree

/-!
# The host

What is known of the machine on which a build runs, and the platform that follows from it.
-/

namespace BuildMeta

/-- The machine on which a build runs. -/
structure Host where
  /-- The platform as the runtime names it, perhaps with a version number at its end. -/
  platform : String := "linux"
  /-- The name of the operating system. -/
  system : String := "Linux"
  /-- The release of the operating system. -/
  release : String := "3.2.0-generic"
  /-- The version of the operating system. -/
  version : String := "#1"
  /-- The name of the processor. -/
  processor : String := "x86_64"
  /-- The name of the machine in its network. -/
  node : String := "host"
  /-- Whether programs run with 64 bit words. -/
  wideWords : Bool := true
  /-- How paths are written. -/
  paths : Path.Style := .posix
  /-- The home directory of the user, as the system has it on record. -/
  userHome : String := "/root"
  /-- The shell of the machine. -/
  shell : Shell

namespace Host

/-- Removes the digits at the end of a text, or before a newline at its end. -/
def dropEndDigits (s : String) : String :=
  match s.toList.reverse with
  | '\n' :: c :: rest =>
    if Text.isDecimal c then String.ofList (rest.dropWhile Text.isDecimal).reverse else s
  | rest => String.ofList (rest.dropWhile Text.isDecimal).reverse

/-- The platform without its version number. -/
def family (h : Host) : String :=
  match h.platform with
  | "powerpc" => "darwin"
  | "win32" => "win32"
  | "os2" => "os2"
  | other => dropEndDigits other

/-- Whether the machine can run 64 bit programs. -/
def isWide (h : Host) : Bool :=
  h.wideWords || ["amd64", "x86_64", "sun4v", "ppc64"].contains (Text.lower h.processor)

/-- Whether the shell is that of a mingw environment. -/
def isMingw (h : Host) : Bool :=
  match h.shell.run "uname" with
  | .ok answer => Text.contains answer "MINGW"
  | .error _ => false

/-- The platform of a machine, before a compiler is chosen for it. -/
def anyCompiler (osType osName cpuType osVersion : String) : Uplid :=
  { osType, osName, cpuType, osVersion, compilerType := "*", compilerVersion := "*" }

/-- The processor that a wide or narrow Windows machine is taken to have. -/
def windowsProcessor (h : Host) : String := if h.isWide then "x86_64" else "x86"

/-- The processor as the system tool prints it. -/
def askedProcessor (h : Host) : Except Failure String := do
  return Text.trimEnd (← h.shell.run "/bin/uname -p")

/-- The platform of the machine, before a compiler is chosen for it. -/
def uplid (h : Host) : Except Failure Uplid :=
  let release := Text.before '-' h.release
  match h.family with
  | "linux" =>
    let cpu := if h.processor == "ppc64" then "powerpc" else h.processor
    .ok (anyCompiler "unix" "linux" cpu release)
  | "aix" => do
    return anyCompiler "unix" "aix" (← h.askedProcessor) (h.version ++ "." ++ h.release)
  | "sunos" => do
    return anyCompiler "unix" "sunos" (← h.askedProcessor) h.release
  | "darwin" => .ok (anyCompiler "unix" "darwin" h.processor release)
  | "win32" =>
    .ok (anyCompiler "windows" "windows_nt" h.windowsProcessor
      (Text.join "." ((Text.split '.' h.version).take 2)))
  | "freebsd" =>
    let cpu := match h.processor with
      | "amd64" => "x86_64"
      | "i386" => "x86"
      | other => other
    .ok (anyCompiler "unix" "freebsd" cpu release)
  | other => .error (.unsupportedPlatform other)

/-! ## Windows seen from cygwin -/

/-- What follows a word and at least one blank at the front of a text. -/
def afterWord? (word : String) (s : List Char) : Option (List Char) :=
  if word.toList.isPrefixOf s then
    match s.drop word.length with
    | c :: rest => if Text.isBlank c then some (rest.dropWhile Text.isBlank) else none
    | [] => none
  else none

/-- The first two numbers of the version in the greeting of the Windows shell.  A character other
than a bracket stands between them and the closing bracket, if need be the last digit of the second
number. -/
def windowsVersion? (greeting : String) : Option String := do
  let s ← afterWord? "Microsoft" (greeting.toList.dropWhile Text.isBlank)
  let s ← afterWord? "[Version" (← afterWord? "Windows" s)
  let major := s.takeWhile Text.isDecimal
  match s.drop major.length with
  | '.' :: s =>
    let minor := s.takeWhile Text.isDecimal
    let rest := s.drop minor.length
    let minor := if rest.head? == some ']' then minor.dropLast else minor
    if major.isEmpty || minor.isEmpty || !rest.contains ']' then none
    else some (String.ofList (major ++ '.' :: minor))
  | _ => none

/-- The platform of the Windows machine under a cygwin environment. -/
def cygwinUplid (h : Host) : Except Failure Uplid := do
  unless h.family == "cygwin" do throw .notCygwin
  let greeting ← h.shell.run "echo $(cmd /c ver)"
  match windowsVersion? greeting with
  | none => throw (.invalidWindowsVersion greeting)
  | some version => return anyCompiler "windows" "windows_nt" h.windowsProcessor version

/-- The platform of the machine, seen through a cygwin environment if there is one. -/
def seenUplid (h : Host) : Except Failure Uplid :=
  if h.family == "cygwin" then h.cygwinUplid else h.uplid

/-! ## Places -/

/-- The directory on the search path that holds a program; `executable` files can be run. -/
def programDir? (environment : Table String) (executable : String → Bool) (name : String) :
    Except Failure (Option String) := do
  match environment.get? "PATH" with
  | none => throw .absentKey
  | some path =>
    let dirs := (Text.split ':' path).map fun d =>
      String.ofList (Text.trimWhile (· == '"') d.toList)
    return dirs.find? fun d => executable (Path.join d name)

/-- The directory before the part of an installation path that names the platform.  The platform
is read as a pattern. -/
def installDir? (path : String) (uplid : Uplid) : Except Failure (Option String) := do
  let pattern ← Text.Pattern.read {}
    ("(.*/)" ++ uplid.machine ++ "(?:\\-[\\w\\.]*)*")
  return (pattern.matchFront? path).bind (·.group? 1)

end Host

end BuildMeta
