import BuildMeta.TestRun.Runner

/-!
# Running cases in parallel

A pool has several workers with one board.  They take turns in any order: a schedule says which of
them acts next.
-/

namespace BuildMeta.TestRun

/-- Workers with the board that they share. -/
structure Pool where
  workers : List Worker
  board : Board := {}
deriving Repr, DecidableEq, Inhabited

namespace Pool

/-- The pool at the start of a run. -/
def start (jobs : Nat) : Pool := { workers := List.replicate jobs .idle }

/-- Lets a worker act, if there is one with the number. -/
def step (policy : Policy) (driver : Nat → Attempt) (pool : Pool) (worker : Nat) : Pool :=
  match pool.workers[worker]? with
  | none => pool
  | some w =>
    let (w, board) := w.act policy driver pool.board
    { workers := pool.workers.set worker w, board }

/-- Lets workers act in the order of a schedule. -/
def play (policy : Policy) (driver : Nat → Attempt) (pool : Pool) (schedule : List Nat) : Pool :=
  schedule.foldl (step policy driver) pool

/-- Whether a run has come to its end: it is done, and no worker has anything left to do. -/
def isOver (pool : Pool) : Bool := pool.board.done && pool.workers.all Worker.isOver

/-- The case that a worker is handed if it acts next. -/
def handout? (policy : Policy) (pool : Pool) (worker : Nat) : Option Nat :=
  if pool.workers[worker]? = some .idle then (pool.board.take policy).1 else none

/-- The cases that are handed out under a schedule, each with the worker that gets it. -/
def handouts (policy : Policy) (driver : Nat → Attempt) (pool : Pool) : List Nat → List (Nat × Nat)
  | [] => []
  | worker :: rest =>
    ((pool.handout? policy worker).map fun case => (worker, case)).toList
      ++ (pool.step policy driver worker).handouts policy driver rest

end Pool

end BuildMeta.TestRun
