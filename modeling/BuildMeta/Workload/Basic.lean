import BuildMeta.FileTree
import BuildMeta.Host

/-!
# Workloads

A workload makes an input of a given size and passes it through one part of the library.  The value
that a run returns sums up what the part computed, so that runs on two machines can be compared.
-/

namespace BuildMeta

/-- What a workload sees beside its size. -/
structure Bench where
  host : Host
  tree : FileTree
  environment : Table String
  /-- The directory below which a workload places its files. -/
  base : String
  /-- The name under which a failure is recorded. -/
  nameOf : Failure → String

/-- A path below the directory of the bench. -/
def Bench.dir (bench : Bench) (name : String) : String := Path.join bench.base name

/-- A workload: what a size prepares, and the run of what was prepared.  Both may fail. -/
abbrev Workload := Bench → Int → Except Failure (Except Failure Datum)

namespace Workload

/-- The workload that needs no preparation. -/
def ofRun (run : Bench → Nat → Except Failure Datum) : Workload :=
  fun bench size => .ok (run bench size.toNat)

/-- The text that follows from a number when the texts of a list are taken in turn. -/
def inTurn (texts : List String) (i : Nat) : String := texts.getD (i % texts.length) ""

/-- The values of a function at the numbers below a size. -/
def table {α : Type} (size : Nat) (f : Nat → α) : List α := (List.range size).map f

/-- A number of at least the given width, filled with zeros. -/
def padded (width i : Nat) : String :=
  let digits := toString i
  String.ofList (List.replicate (width - digits.length) '0') ++ digits

/-- The lines of a text file. -/
def unlines (lines : List String) : String := String.join (lines.map (· ++ "\n"))

/-- The files of a directory of the bench. -/
def filesIn (dir : String) (files : List (String × String)) : FileTree :=
  FileTree.build dir (.ofList files) []

/-- What is recorded of a computation that should fail: the failure in words. -/
def failureText {α : Type} (x : Except Failure α) : Datum :=
  match x with
  | .ok _ => .null
  | .error e => .str e.message

end Workload

end BuildMeta
