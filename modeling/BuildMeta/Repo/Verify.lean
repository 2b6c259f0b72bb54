import BuildMeta.Digraph.Cycles
import BuildMeta.Repo.Context

/-!
# Verifying repositories

A repository is sound if there are no cycles among its units of release, among the packages of each
group and among the components of each package.
-/

namespace BuildMeta.Context

/-- Reports the cycles of a graph; the result says whether there are none. -/
def checkCycles (g : Digraph) : Logged Bool := do
  match g.cycles with
  | [] =>
    confirm
    return true
  | cycles => do
    Logged.tell (.closing "found cycle(s)")
    Logged.tellAll (cycles.map fun cycle => .warn ("CYCLE: " ++ Text.join "," (Text.sort cycle)))
    return false

/-- Announces the check of a graph and reports its cycles. -/
def check (name : String) (g : Except Failure Digraph) : Logged Bool := do
  Logged.tell (.opening ("Verifying " ++ name))
  checkCycles (← g)

/-- The cycles that the warnings of a check name, in order. -/
def namedCycles (notices : List Notice) : List (List String) :=
  (notices.filterMap fun n => match n with
    | .warn text => some (Text.split ',' (Text.drop 7 text))
    | _ => none).mergeSort Text.textsLe

/-- Checks every graph of a repository; the result says whether there are no cycles. -/
def verify (tree : FileTree) (c : Context) : Logged Bool := do
  let units := c.units.values
  let releases ← check "UORs" (.ok c.releaseGraph)
  let groups ← (units.filter (·.kind == .group)).mapM fun g => check g.name (c.packageGraph g)
  let packages ← (units.filter (·.kind.isPackage)).mapM fun p =>
    check p.name (Component.digraph tree p.path p.components true)
  return releases && groups.all id && packages.all id

end BuildMeta.Context
