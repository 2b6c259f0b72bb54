import BuildMeta.Path
import BuildMeta.Repo.Component

/-!
# Pairs of compilers

The C++ compiler that belongs to a C compiler, and the other way round, by their file names.  A
version may follow the name of a compiler after a hyphen.
-/

namespace BuildMeta.Compiler

/-- The known pairs: a C++ compiler and its C compiler. -/
def pairs : List (String × String) :=
  [("g++", "gcc"), ("clang++", "clang"), ("CC", "cc"), ("xlC_r", "xlc_r")]

/-- The partner of a compiler for the given language. -/
def partner? (language : Language) (name : String) : Option String :=
  match language with
  | .cxx => pairs.lookup name
  | .c => (pairs.find? (·.2 == name)).map Prod.fst

/-- A dot and digits at the front of a text, or nothing. -/
def dotDigits (s : List Char) : List Char :=
  match s with
  | '.' :: rest =>
    match rest.takeWhile Text.isDecimal with
    | [] => []
    | digits => '.' :: digits
  | _ => []

/-- The version after the name of a compiler: a hyphen and up to three numbers, which end the name
but for a newline. -/
def versionTail? (s : List Char) : Option (List Char) :=
  match s with
  | [] => some []
  | '-' :: rest =>
    let first := rest.takeWhile Text.isDecimal
    let second := dotDigits (rest.drop first.length)
    let third := dotDigits (rest.drop (first.length + second.length))
    let tail := first ++ second ++ third
    let after := rest.drop tail.length
    if !first.isEmpty && (after == [] || after == ['\n']) then some ('-' :: tail) else none
  | _ => none

/-- The path of the partner of a compiler for the given language. -/
def partnerPath? (language : Language) (path : String) : Option String := do
  let base := (Path.baseName path).toList
  let name := base.takeWhile (· != '-')
  let tail ← versionTail? (base.drop name.length)
  let partner ← partner? language (String.ofList name)
  return Path.join (Path.dirName path) (partner ++ String.ofList tail)

end BuildMeta.Compiler
