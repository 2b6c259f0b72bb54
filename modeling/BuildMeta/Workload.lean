import BuildMeta.Workload.Graphs
import BuildMeta.Workload.Hosts
import BuildMeta.Workload.Packages
import BuildMeta.Workload.Repositories
import BuildMeta.Workload.Rules

/-!
# Running workloads

All workloads, and the results of running one several times.
-/

namespace BuildMeta.Workload

/-- Runs a workload several times on the same input: the result of every run. -/
def runs (w : Workload) (bench : Bench) (size : Int) (times : Nat) :
    Except Failure (List (Except Failure Datum)) := do
  return List.replicate times (← w bench size)

end BuildMeta.Workload
