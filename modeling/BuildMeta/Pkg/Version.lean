import BuildMeta.Datum
import BuildMeta.Failure
import BuildMeta.Text.Integer

/-!
# Versions of packages

A version is a sequence of parts, each a number or a word, with at most one separator before each.
Numbers are compared as numbers and words as texts; a number cannot be compared with a word.
Trailing zeros do not count.
-/

namespace BuildMeta.Pkg

/-- A part of a version. -/
inductive Part where
  | number (n : Int)
  | word (text : String)
deriving Repr, BEq, DecidableEq, Inhabited

namespace Part

/-- The part that a run of part characters stands for. -/
def ofRun (run : List Char) : Part :=
  let text := String.ofList run
  match Text.integer? text with
  | some n => .number n
  | none => .word text

/-- Whether a character may stand before a part. -/
def isSeparator (c : Char) : Bool := ['-', '.', '_', '~', '+', ' '].contains c

/-- Whether a part may hold a character. -/
def isPartChar (c : Char) : Bool :=
  ('a' ≤ c && c ≤ 'z') || ('A' ≤ c && c ≤ 'Z') || ('0' ≤ c && c ≤ '9') || c == '%'

/-- The text after a separator, if one stands at its front. -/
def afterSeparator : List Char → List Char
  | [] => []
  | c :: rest => if isSeparator c then rest else c :: rest

theorem length_afterSeparator (s : List Char) : (afterSeparator s).length ≤ s.length := by
  cases s with
  | nil => simp [afterSeparator]
  | cons c rest =>
    by_cases h : isSeparator c <;> simp [afterSeparator, h]

/-- The parts at the front of a text; reading stops where no part stands. -/
def readAll (s : List Char) : List Part :=
  let run := (afterSeparator s).takeWhile isPartChar
  if run.isEmpty then [] else ofRun run :: readAll ((afterSeparator s).drop run.length)
termination_by s.length
decreasing_by
  rename_i h
  have h1 := length_afterSeparator s
  have h2 : 0 < ((afterSeparator s).takeWhile isPartChar).length := by
    cases hr : (afterSeparator s).takeWhile isPartChar with
    | nil => exact absurd (show run.isEmpty = true by simp only [run, hr, List.isEmpty_nil]) h
    | cons c cs => simp
  have h3 : ((afterSeparator s).takeWhile isPartChar).length ≤ (afterSeparator s).length :=
    (List.takeWhile_sublist _).length_le
  simp only [List.length_drop]
  omega

/-- Compares two parts of the same kind. -/
def compare : Part → Part → Except Failure Ordering
  | .number m, .number n => .ok (Ord.compare m n)
  | .word s, .word t => .ok (if s < t then .lt else if t < s then .gt else .eq)
  | _, _ => .error .wrongType

/-- Whether a part is the number zero. -/
def isZero : Part → Bool
  | .number n => n == 0
  | .word _ => false

/-- Compares part by part; a longer sequence is greater unless only zeros follow. -/
def compareAll : List Part → List Part → Except Failure Ordering
  | [], rest => .ok (if rest.all isZero then .eq else .lt)
  | rest, [] => .ok (if rest.all isZero then .eq else .gt)
  | a :: as, b :: bs => do
    match ← compare a b with
    | .eq => compareAll as bs
    | other => return other

end Part

/-- A version: its text and the parts that were read from it. -/
structure Version where
  raw : String
  parts : List Part
deriving Repr, BEq, DecidableEq, Inhabited

namespace Version

/-- The version of a package that states none. -/
def none : Version := ⟨"0", [.number 0]⟩

/-- Reads a version. -/
def parse (text : String) : Version := ⟨text, Part.readAll text.toList⟩

/-- Compares two versions.  Equal part sequences are equal whatever they hold. -/
def compare (a b : Version) : Except Failure Ordering :=
  if a.parts == b.parts then .ok .eq else Part.compareAll a.parts b.parts

/-- Whether a version counts as none at all. -/
def isEmpty (v : Version) : Except Failure Bool := (· == .eq) <$> v.compare none

/-- The parts as values. -/
def partsDatum (v : Version) : Datum :=
  .list (v.parts.map fun
    | .number n => .int n
    | .word s => .str s)

/-- The text and parts of a version. -/
def view (v : Version) : Datum := .dict [("raw", .str v.raw), ("comps", v.partsDatum)]

end Version

end BuildMeta.Pkg
