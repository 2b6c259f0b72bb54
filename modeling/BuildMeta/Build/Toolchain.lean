import BuildMeta.Build.Session
import BuildMeta.Compiler.Pair
import BuildMeta.Host
import BuildMeta.Ufid.Choice

/-!
# The toolchain of a build

Which flavour is built, by which compiler and for which platform.  The environment may override what
the command line and the compiler say.
-/

namespace BuildMeta.Build

/-- What is known before a build is configured. -/
structure Setup where
  tree : FileTree
  /-- The root directory of the repository. -/
  root : String
  /-- The root directory of the tools. -/
  tools : String
  /-- The command that runs the pkg-config of the tools. -/
  ownPkgConfig : List String
  host : Host
  /-- The values of the command line. -/
  options : Table Datum
  /-- The packages that pkg-config knows, each with the variables that it sets. -/
  packages : Table (Table Datum) := ∅
  /-- The programs that can be found. -/
  programs : List String := []
  /-- The macros that the compiler defines, if it can be started. -/
  macros : Option String := some ""
  /-- The greeting of the compiler. -/
  greeting : String := ""

/-- A value of the command line. -/
def Setup.option (s : Setup) (name : String) : Datum := s.options.getD name .null

namespace Toolchain

/-- The variable that overrides the flavour. -/
def ufidSetting : String := "BDE_WAF_UFID"

/-- The variable that overrides the platform. -/
def uplidSetting : String := "BDE_WAF_UPLID"

/-- The warning that two flavours are asked for. -/
def ufidConflict (asked override : String) : Notice :=
  .warn ("The specified UFID, \"" ++ asked ++ "\", is different from the value of the " ++
    "environment variable BDE_WAF_UFID , \"" ++ override ++ "\". The value of BDE_WAF_UFID will " ++
    "take precedence.")

/-- The flavour of a build: the one that the environment names, else the one that the command line
names, else the one that the other options choose. -/
def ufid (s : Setup) : Step Ufid := do
  match ← Step.setting? ufidSetting with
  | some override =>
    let asked := s.option "ufid"
    if asked.truthy && !asked.sameAtom (.str override) then
      Step.say (ufidConflict asked.text override)
    Ufid.parseKnown override
  | none => Ufid.ofOptions s.options

/-! ## Compilers -/

/-- The version after a point of the greeting of the Windows compiler, if the greeting names the
processor after it on the same line. -/
def greetingVersionAt? (s : List Char) : Option String := do
  let word := "Compiler Version ".toList
  guard (word.isPrefixOf s)
  let rest := s.drop word.length
  let major := rest.takeWhile Char.isDigit
  let rest := rest.dropWhile Char.isDigit
  let minor := (rest.drop 1).takeWhile Char.isDigit
  guard (!major.isEmpty && rest.head? == some '.' && !minor.isEmpty)
  let line := ((rest.drop 1).dropWhile Char.isDigit).takeWhile (· != '\n')
  guard (Text.hasInfix " for ".toList line)
  return String.ofList (major ++ ['.'] ++ minor)

/-- The version in the greeting of the Windows compiler. -/
def greetingVersion? : List Char → Option String
  | [] => none
  | s@(_ :: rest) => greetingVersionAt? s <|> greetingVersion? rest

/-- The names that other platforms have for a compiler. -/
def compilerName (family name : String) : String :=
  match family, name with
  | "aix", "xlc++" => "xlc"
  | "sunos", "sun" => "cc"
  | _, _ => name

/-- The type and version of the compiler, as the build tool has found them. -/
def foundCompiler (family : String) (v : Variables) (greeting : String) :
    Except Failure (String × String) :=
  if family == "win32" then
    match greetingVersion? greeting.toList with
    | some version => .ok ("cl", version)
    | none => .error .unassigned
  else if ["linux", "aix", "sunos", "darwin", "freebsd"].contains family then
    do return (compilerName family (← (v.value "CXX_NAME").needText),
      Text.join "." (← v.texts "CC_VERSION"))
  else .error (.unsupportedPlatform family)

/-- The type and version of the compiler.  A compiler that passes for gcc is told by its macros. -/
def compiler (s : Setup) (v : Variables) : Except Failure (String × String) := do
  let (name, version) ← foundCompiler s.host.family v s.greeting
  if name != "gcc" then return (name, version)
  let command ← match v.value "CXX" with
    | .list words => pure (words ++ ["-dM", "-E", "-"].map Datum.str)
    | _ => throw .wrongType
  match s.macros with
  | none => throw (.fatal ("Could not determine the compiler version " ++ (Datum.list command).repr))
  | some macros =>
    return if Text.contains macros "__clang__ 1" then ("clang", version) else (name, version)

/-- The platform of a build, and the one that the machine and its compiler have. -/
def uplids (s : Setup) : Step (Uplid × Uplid) := do
  let machine ← s.host.uplid
  let (compilerType, compilerVersion) ← compiler s (← Step.vars)
  let actual := { machine with compilerType, compilerVersion }
  match ← Step.setting? uplidSetting with
  | some text => return (← Uplid.parse text, actual)
  | none => return (actual, actual)

/-- Checks that the two compilers belong together. -/
def checkCompilers : Step Unit := do
  let v ← Step.vars
  match Compiler.partner? .cxx (← (v.value "COMPILER_CXX").needKey).strD with
  | none => return
  | some expected =>
    if (v.value "COMPILER_CC").str? != some expected then
      Step.fatal ("C compiler and C++ compiler must match. Expected c compiler: " ++ expected)

/-! ## Defaults that depend on the compiler -/

/-- Whether warnings on sources are errors when the command line does not say. -/
def refusesWarnings (uplid : Uplid) (ufid : Ufid) : Bool :=
  uplid.compilerType == "gcc" && decide ("4.9" ≤ uplid.compilerVersion) && !ufid.has "opt"

/-- The flavour with the language standard of the compiler, if nothing else says which to use. -/
def withStandard (s : Setup) (uplid : Uplid) (ufid : Ufid) : Step Ufid := do
  if (← Step.setting? ufidSetting).isSome || !(s.option "ufid").isNull ||
      !(s.option "cpp_std").isNull then
    return ufid
  let standard ← Ufid.defaultStandard uplid.compilerType (some uplid.compilerVersion)
  return if standard == "11" then ufid.insert "cpp11" else ufid

end Toolchain

end BuildMeta.Build
