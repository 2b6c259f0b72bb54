import BuildMeta.Datum
import BuildMeta.Failure

/-!
# Flavours

A flavour (ufid) is a set of flags that name the kind of build, such as `dbg_exc_mt`.  Its text
lists the flags in a fixed order of ranks; the empty set is written `_`.
-/

namespace BuildMeta

/-- A set of flavour flags, without repetitions. -/
structure Ufid where
  flags : List String := []
deriving Repr, BEq, DecidableEq, Inhabited

namespace Ufid

/-- The set of the given flags. -/
def ofFlags (flags : List String) : Ufid := ⟨flags.eraseDups⟩

/-- Reads a flavour: flags between underscores, empty ones dropped. -/
def parse (s : String) : Ufid := ofFlags ((Text.split '_' s).filter (· != ""))

/-- The known flags with their ranks. -/
def ranks : List (String × Nat) :=
  [("dbg", 1), ("opt", 0), ("exc", 50), ("mt", 51), ("ndebug", 52), ("64", 95), ("safe2", 96),
    ("safe", 97), ("shr", 98), ("pic", 99), ("stlport", 100), ("cpp11", 112)]

/-- The rank of a flag; unknown flags come first. -/
def rank (flag : String) : Nat := (ranks.lookup flag).getD 0

/-- Whether all flags are known. -/
def isValid (u : Ufid) : Bool := u.flags.all fun f => (ranks.lookup f).isSome

/-- Whether a flag is in the set. -/
def has (u : Ufid) (flag : String) : Bool := u.flags.contains flag

/-- The set with one more flag. -/
def insert (u : Ufid) (flag : String) : Ufid :=
  if u.has flag then u else ⟨u.flags ++ [flag]⟩

/-- The set without a flag. -/
def erase (u : Ufid) (flag : String) : Ufid := ⟨u.flags.filter (· != flag)⟩

/-- The text of a flavour: its flags by rank, joined by underscores. -/
def render (u : Ufid) : String :=
  if u.flags.isEmpty then "_"
  else Text.join "_" (u.flags.mergeSort fun a b => decide (rank a ≤ rank b))

/-- The flags in code point order. -/
def view (u : Ufid) : Datum := .strs (Text.sortedSet u.flags)

/-- Whether a flavour has all flags of a mask. -/
def satisfies (u mask : Ufid) : Bool := mask.flags.all u.has

/-- Reads a flavour of known flags. -/
def parseKnown (s : String) : Except Failure Ufid :=
  let u := parse s
  if u.isValid then .ok u else .error (.invalidUfid s)

end Ufid

end BuildMeta
