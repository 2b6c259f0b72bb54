import BuildMeta.Datum
import BuildMeta.Failure
import BuildMeta.Path

/-!
# Which test cases to skip

A policy table lists, for each component, cases with the conditions under which they are skipped.
The conditions that fit the machine make the policy of a test run.
-/

namespace BuildMeta.TestRun

/-- The component whose test driver stands at a path. -/
def componentOf (path : String) : String := Text.before '.' (Path.baseName path)

/-- The cases of a policy, each with what is done about it; the last entry of a case counts. -/
structure Policy where
  rulings : List (Datum × Datum)
deriving Repr, Inhabited

namespace Policy

/-- Whether the conditions of an entry fit a machine.  Conditions that the machine does not know
are not looked at. -/
def fits (machine entry : Table Datum) : Bool :=
  entry.entries.all fun (name, wanted) =>
    match machine.get? name with
    | some value => wanted.sameAtom value
    | none => true

/-- The case and ruling of an entry. -/
def ruling (entry : Table Datum) : Except Failure (Datum × Datum) :=
  match entry.get? "policy", entry.get? "case" with
  | some _, some (.list _) | some _, some (.dict _) => .error .wrongType
  | some p, some c => .ok (c, p)
  | _, _ => .error .absentKey

/-- The policy for a component on a machine. -/
def ofTable (table : Table Datum) (machine : Table Datum) (component : String) :
    Except Failure Policy :=
  match table.get? component with
  | none => .ok ⟨[]⟩
  | some entries => do
    let fitting ← (← entries.members).filterMapM fun entry =>
      match entry with
      | .dict fields =>
        let fields := Table.ofList fields
        if fits machine fields then some <$> ruling fields else pure none
      | _ => .error .wrongType
    return ⟨fitting⟩

/-- The properties of a machine that conditions speak of. -/
def machine (system hostType : String) (abiBits : Option String) : Table Datum :=
  .ofList [("os", .str system), ("host_type", .str hostType), ("abi_bits", .optStr abiBits)]

/-- Whether a case is skipped, if the policy speaks of it. -/
def skips? (p : Policy) (case : Nat) : Option Bool :=
  (p.rulings.reverse.find? fun (c, _) => c.sameAtom (.int case)).map fun (_, ruling) =>
    ruling.sameAtom (.str "skip")

/-- Whether a case is skipped. -/
def skips (p : Policy) (case : Nat) : Bool := p.skips? case == some true

/-- Passes over skipped cases: those passed over, and the next case to run.  The policy speaks of
finitely many cases, so a bound on their number ends the search. -/
def passOver (p : Policy) : Nat → Nat → List Nat × Nat
  | 0, case => ([], case)
  | bound + 1, case =>
    if p.skips case then
      let (skipped, next) := passOver p bound (case + 1)
      (case :: skipped, next)
    else ([], case)

/-- The cases skipped from a case on, and the next case to run. -/
def next (p : Policy) (case : Nat) : List Nat × Nat := p.passOver p.rulings.length case

/-- The policy table of the library's own components. -/
def standardTable : Table Datum :=
  let skip (case : Int) : Datum :=
    .dict [("case", .int case), ("host_type", .str "VM"), ("policy", .str "skip")]
  .ofList [("bsls_atomic", .list [skip 7, skip 8]), ("bslstl_map", .list [skip 8]),
    ("bsls_stopwatch", .list [skip 6])]

end Policy

end BuildMeta.TestRun
