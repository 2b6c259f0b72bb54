import BuildMeta.Compiler.Info
import BuildMeta.Compiler.Pair
import BuildMeta.VersionOrder
import BuildMeta.Workload.Basic

/-!
# Workloads on hosts and compilers

Comparing versions, pairing compilers, and reading a list of compilers.
-/

namespace BuildMeta.Workload

/-! ## Hosts -/

/-- The places of a version among others: above a least one, inside a range, below a greatest one,
against itself, and against a version that is no number. -/
def versionPlaces (version : String) : Datum :=
  .list ([(some "4.7", none), (some "4.7", some "4.9"), (none, some "5.0"), (some version, none),
    (some "x.y", some "x.z")].map fun (least, greatest) =>
      .bool (VersionOrder.within version least greatest))

/-- Compares versions, pairs compilers and describes the host. -/
def hosts : Workload := ofRun fun bench size =>
  let version (i : Nat) : String :=
    Text.join "." [toString (i % 5), toString (3 * i % 10), toString (i % 7)]
  return .list ((table size version ++ ["9.9.9", "a.b"]).map versionPlaces ++
    [.optStr (Compiler.partnerPath? .cxx "/usr/bin/g++"),
      .optStr (Compiler.partnerPath? .c "/usr/bin/gcc-4.9"),
      .optStr (Compiler.partnerPath? .cxx "/opt/clang++-3.6.2"),
      .optStr (Compiler.partnerPath? .c "/opt/cc"),
      .optStr (Compiler.partnerPath? .cxx "/opt/unknown"),
      .str (bench.dir "tools"), .str bench.host.family, .bool bench.host.isWide])

/-! ## Compilers -/

/-- The entry of a compiler list; every other compiler has flags of its own. -/
def compilerEntry (i : Nat) : Datum :=
  let version := "4." ++ toString i
  .dict ([("type", .str "gcc"), ("version", .str version),
    ("c_path", .str ("/usr/bin/gcc-" ++ version)), ("cxx_path", .str ("/usr/bin/g++-" ++ version))] ++
    if i % 2 == 0 then [("flags", .str ("-DV" ++ toString i))] else [])

/-- The entry of a host. -/
def hostEntry (i : Nat) : Datum :=
  .dict [("hostname", .str ".*"), ("uplid", .str "unix-linux-"),
    ("compilers", .list (table (i + 1) compilerEntry))]

/-- Reads a list of compilers.  A list without an entry for the host has no compilers to show. -/
def compilers : Workload := ofRun fun _ size => do
  let uplid ← Uplid.parse "unix-linux-x86_64-3.10-*-*"
  match ← CompilerInfo.listed? "host" uplid (Json.write (.list (table size hostEntry))) with
  | none => throw .wrongType
  | some infos =>
    return .list (← infos.mapM fun info => do
      return .list [.str (← info.key), .str (← info.description)])

end BuildMeta.Workload
