import BuildMeta.Datum
import BuildMeta.Table
import BuildMeta.Ufid

/-!
# Choosing a flavour

A flavour follows from the options of a build: either it is given as a whole, or each option
contributes a flag.
-/

namespace BuildMeta.Ufid

/-- The flags that options contribute, by option and value. -/
def choices : List (String × List (Datum × String)) :=
  [("abi_bits", [(.str "64", "64")]),
    ("build_type", [(.str "debug", "dbg"), (.str "release", "opt")]),
    ("safe", [(.bool true, "safe")]),
    ("safe2", [(.bool true, "safe2")]),
    ("cpp_std", [(.str "11", "cpp11")]),
    ("noexception", [(.bool false, "exc")]),
    ("library_type", [(.str "shared", "shr")])]

/-- The flag that one option contributes, if any.  Collections cannot be looked up. -/
def choice (options : Table Datum) (name : String) (values : List (Datum × String)) :
    Except Failure (Option String) :=
  match options.get? name with
  | none => .ok none
  | some (.list _) => .error .wrongType
  | some (.dict _) => .error .wrongType
  | some v => .ok ((values.find? fun (w, _) => v.sameAtom w).map Prod.snd)

/-- The flavour of a build with the given options.  All builds are multi-threaded. -/
def ofOptions (options : Table Datum) : Except Failure Ufid :=
  match options.get? "ufid" with
  | none => .error .absentAttribute
  | some given =>
    if given.truthy then
      match given with
      | .str s => parseKnown s
      | _ => .error .absentAttribute
    else do
      let flags ← choices.mapM fun (name, values) => choice options name values
      return ofFlags (flags.filterMap id ++ ["mt"])

/-- The language standard that a compiler uses unless told otherwise.  Versions are compared as
texts. -/
def defaultStandard (compilerType : String) (version : Option String) : Except Failure String :=
  let threshold? := [("gcc", "4.8"), ("clang", "3.6")].lookup compilerType
  match threshold?, version with
  | none, _ => .ok "03"
  | some _, none => .error .wrongType
  | some threshold, some v => .ok (if threshold ≤ v then "11" else "03")

end BuildMeta.Ufid
