import BuildMeta.Notice
import BuildMeta.TestRun.Policy
import BuildMeta.Text.Encoding

/-!
# Running the cases of a test driver

A test driver is started once for every case, with the number of the case as its argument, until it
says that there is no such case.  Workers take the cases from a board that they share and record on
it what becomes of them.  A worker is lost over an output that cannot be read, and nobody notices.
How the started processes end is given; the run is what one worker makes of it.
-/

namespace BuildMeta.TestRun

/-- What a run is asked to do. -/
structure Plan where
  path : String
  debug : Bool := false
  verbosity : Int := 0
  /-- The time limit in seconds. -/
  timeout : Int := 120
  /-- The file for the report; without one the results are printed. -/
  report : Option String := none
  /-- The memory checker under which the driver runs. -/
  checker : Option String := none
  policy : Policy
deriving Repr, Inhabited

/-- Something that ends a run while a process is running. -/
inductive Disturbance where
  /-- The time limit is over. -/
  | timeout
  /-- The user interrupts the run. -/
  | interrupt
deriving Repr, BEq, DecidableEq, Inhabited

/-- What a process has written, with the encoding in which it is read. -/
structure Output where
  bytes : List UInt8 := []
  encoding : Text.Encoding := .utf8
deriving Repr, BEq, DecidableEq, Inhabited

namespace Output

/-- A text that a process has written. -/
def ofText (s : String) : Output := { bytes := s.toUTF8.data.toList }

/-- The output as a text, if it can be read. -/
def text? (o : Output) : Option String := o.encoding.decode? o.bytes

@[simp] theorem text?_ofText (s : String) : (ofText s).text? = some s :=
  Text.Encoding.decode?_utf8 s

end Output

/-- How the start of a process ends. -/
inductive Attempt where
  /-- The process ended, perhaps after the run was disturbed. -/
  | ended (status : Int) (output : Output) (disturbance : Option Disturbance)
  /-- The process could not be started. -/
  | notStarted (reason : String)
deriving Repr, BEq, DecidableEq, Inhabited

/-- What a run did. -/
structure Run where
  notices : List Notice := []
  /-- The commands that were started. -/
  commands : List (List String) := []
  /-- The exit statuses of the processes that were killed. -/
  killed : List Int := []
  /-- Whether no case failed. -/
  passed : Bool := true
deriving Repr, BEq, Inhabited

namespace Plan

/-- The command that runs a case. -/
def command (p : Plan) (case : Nat) : List String :=
  let checker := match p.checker with
    | none => []
    | some tool => ["valgrind", "--error-exitcode=1", "--tool=" ++ tool] ++
        (if tool == "memcheck" then ["--leak-check=full"] else [])
  checker ++ [p.path, toString case] ++ List.replicate p.verbosity.toNat "v"

/-- A line about a case. -/
def line (case : Nat) (text : String) : Notice :=
  .info ("CASE " ++ Text.padLeft 2 (toString case) ++ ": " ++ text)

/-- A line that is printed unless results go to a report. -/
def printed (p : Plan) (n : Notice) : List Notice := if p.report.isNone then [n] else []

/-- A line that is printed only for debugging. -/
def traced (p : Plan) (n : Notice) : List Notice := if p.debug then [n] else []

/-- What is said when a case starts. -/
def opening (p : Plan) (case : Nat) : List Notice :=
  (if case == 1 then p.printed (.info "TEST START") else []) ++
    (if p.report.isNone then p.traced (line case "START") else []) ++
    p.traced (line case ("COMMAND " ++ (Datum.strs (p.command case)).repr))

/-- Whether an exit status says that there are no more cases. -/
def endsCases (status : Int) : Bool := [255, -1, 127, 4294967295].contains status

/-- The last case that is run however many there seem to be. -/
def lastCase : Nat := 99

/-- What is said when the time limit is over. -/
def timedOut (p : Plan) : List Notice :=
  p.traced (.info ("TIMED OUT AFTER " ++ toString p.timeout ++ "s"))

/-- What a disturbance says, before the process ends. -/
def disturbed (p : Plan) (case : Nat) : Disturbance → List Notice
  | .timeout =>
    p.timedOut ++
      p.printed (line case ("TIMEOUT (after " ++ toString p.timeout ++ "s, pid: 4242)"))
  | .interrupt => [.info "CAUGHT SIG_INT"]

/-- What is said of the result of a case. -/
def closing (p : Plan) (case : Nat) (status : Int) (output : String) : List Notice :=
  let full (word : String) : Notice :=
    line case (word ++ " (rc " ++ toString status ++ ")\n" ++ output)
  p.printed <|
    if status != 0 then full "FAILURE"
    else if p.verbosity > 0 then full "SUCCESS"
    else line case "SUCCESS"

end Plan

/-! ## What is recorded -/

/-- Something that is recorded in a run. -/
inductive Event where
  | skipped (case : Nat)
  | started (case : Nat)
  /-- The process could not be started. -/
  | unstarted (case : Nat) (reason : String)
  /-- The run was disturbed and the process killed, which ended it with a status. -/
  | disturbed (case : Nat) (disturbance : Disturbance) (status : Int)
  | passed (case : Nat) (output : String)
  | failed (case : Nat) (status : Int) (output : String)
  /-- There is no such case. -/
  | absent (case : Nat)
  /-- The time limit was over, with nobody at work. -/
  | expired
deriving Repr, DecidableEq, Inhabited

namespace Event

/-- What is said of an event. -/
def notices (p : Plan) : Event → List Notice
  | skipped case => p.printed (Plan.line case "SKIP")
  | started case => p.opening case
  | unstarted case reason => [Plan.line case ("PYTHON EXCEPTION (" ++ reason ++ ")")]
  | disturbed case disturbance _ => p.disturbed case disturbance
  | passed case output => p.closing case 0 output
  | failed case status output => p.closing case status output
  | absent case => p.traced (Plan.line case "DOES NOT EXIST")
  | expired => p.timedOut

/-- The command that was started. -/
def command? (p : Plan) : Event → Option (List String)
  | started case => some (p.command case)
  | _ => none

/-- The exit status of the process that was killed. -/
def killed? : Event → Option Int
  | disturbed _ _ status => some status
  | _ => none

end Event

/-! ## The board -/

/-- What the workers of a run share. -/
structure Board where
  /-- The last case that was handed out. -/
  last : Nat := 0
  /-- Whether no more cases are handed out. -/
  done : Bool := false
  /-- Whether no case is known to have failed. -/
  passed : Bool := true
  events : List Event := []
deriving Repr, DecidableEq, Inhabited

namespace Board

/-- Records an event. -/
def record (b : Board) (e : Event) : Board := { b with events := b.events ++ [e] }

/-- Hands out the next case that is not skipped, unless the run is done. -/
def take (b : Board) (policy : Policy) : Option Nat × Board :=
  if b.done then (none, b)
  else
    let (skipped, case) := policy.next (b.last + 1)
    (some case, { b with last := case, events := b.events ++ skipped.map .skipped })

/-- Marks the run as failed. -/
def fail (b : Board) : Board := { b with passed := false }

/-- Marks the run as done. -/
def stop (b : Board) : Board := { b with done := true }

/-- Ends the run by its time limit, unless it is done. -/
def expire (b : Board) : Board := if b.done then b else b.fail.stop.record .expired

@[simp] theorem events_record (b : Board) (e : Event) : (b.record e).events = b.events ++ [e] := rfl

@[simp] theorem passed_record (b : Board) (e : Event) : (b.record e).passed = b.passed := rfl

@[simp] theorem done_record (b : Board) (e : Event) : (b.record e).done = b.done := rfl

@[simp] theorem events_fail (b : Board) : b.fail.events = b.events := rfl

@[simp] theorem done_fail (b : Board) : b.fail.done = b.done := rfl

@[simp] theorem events_stop (b : Board) : b.stop.events = b.events := rfl

@[simp] theorem passed_stop (b : Board) : b.stop.passed = b.passed := rfl

/-- The run that a board tells of. -/
def run (b : Board) (p : Plan) : Run :=
  { notices := b.events.flatMap (Event.notices p)
    commands := b.events.filterMap (Event.command? p)
    killed := b.events.filterMap Event.killed?
    passed := b.passed }

end Board

/-! ## Workers -/

/-- What a worker is about to do. -/
inductive Worker where
  /-- To take a case. -/
  | idle
  /-- To start the process of a case. -/
  | handed (case : Nat)
  /-- To see how the process of a case ends. -/
  | running (case : Nat)
  /-- To mark the run as failed, after a case that did. -/
  | failing
  /-- To mark the run as done. -/
  | stopping
  | finished
  /-- To do nothing more: the output of a case could not be read. -/
  | lost (case : Nat)
deriving Repr, DecidableEq, Inhabited

namespace Worker

/-- Records how the process of a case ended. -/
def conclude (case : Nat) (b : Board) : Attempt → Worker × Board
  | .notStarted reason => (stopping, b.fail.record (.unstarted case reason))
  | .ended status output disturbance =>
    let b := match disturbance with
      | none => b
      | some d => b.fail.stop.record (.disturbed case d status)
    if Plan.endsCases status || case > Plan.lastCase then (stopping, b.record (.absent case))
    else match output.text? with
      | none => (lost case, b)
      | some text =>
        if status == 0 then (idle, b.record (.passed case text))
        else (failing, b.record (.failed case status text))

/-- What a worker does next, given how the process of a case ends. -/
def act (policy : Policy) (driver : Nat → Attempt) (b : Board) : Worker → Worker × Board
  | idle =>
    match b.take policy with
    | (none, b) => (finished, b)
    | (some case, b) => (handed case, b)
  | handed case => (running case, b.record (.started case))
  | running case => conclude case b (driver case)
  | failing => (idle, b.fail)
  | stopping => (finished, b.stop)
  | finished => (finished, b)
  | lost case => (lost case, b)

/-- Whether a worker has nothing left to do. -/
def isOver : Worker → Bool
  | finished | lost _ => true
  | _ => false

/-- Whether a worker waits for a process. -/
def isRunning : Worker → Bool
  | running _ => true
  | _ => false

/-- How far a worker is from the end, if no process of it ends with a result. -/
def rank : Worker → Nat
  | failing => 5
  | idle => 4
  | handed _ => 3
  | running _ => 2
  | stopping => 1
  | finished | lost _ => 0

theorem rank_lt (w : Worker) : w.rank < 6 := by
  cases w <;> simp [rank]

/-- A process that says that there is no such case. -/
def noCase : Attempt := .ended 255 {} none

/-- A worker gets closer to the end, unless a process of it ends with a result. -/
theorem rank_act_lt {policy : Policy} {driver : Nat → Attempt} {b : Board} {w : Worker}
    (hw : w.isOver = false) (hdriver : w.isRunning = true → ∀ case, driver case = noCase) :
    (w.act policy driver b).1.rank < w.rank := by
  cases w with
  | idle =>
    rw [act]
    split
    · exact Nat.zero_lt_succ 3
    · exact Nat.lt_succ_self 3
  | handed case => exact Nat.lt_succ_self 2
  | running case =>
    rw [act, hdriver rfl case]
    exact Nat.lt_succ_self 1
  | failing => exact Nat.lt_succ_self 4
  | stopping => exact Nat.zero_lt_one
  | finished | lost case => cases hw

/-- The number of processes that are left goes down with each that ends. -/
theorem measure_act_lt {policy : Policy} {b : Board} {w : Worker} {attempts : List Attempt}
    (hw : w.isOver = false) :
    6 * (if w.isRunning then attempts.tail else attempts).length
        + (w.act policy (fun _ => attempts.headD noCase) b).1.rank
      < 6 * attempts.length + w.rank := by
  have hlt := rank_lt (w.act policy (fun _ => attempts.headD noCase) b).1
  have hact : (w.isRunning = true → attempts = []) →
      (w.act policy (fun _ => attempts.headD noCase) b).1.rank < w.rank := by
    intro hnone
    refine rank_act_lt hw fun hrunning case => ?_
    rw [hnone hrunning, List.headD_nil]
  cases hrunning : w.isRunning with
  | false =>
    have hrank := hact fun htrue => absurd (hrunning.symm.trans htrue) (by decide)
    simp only [Bool.false_eq_true, if_false]
    omega
  | true =>
    cases attempts with
    | nil =>
      have hrank := hact fun _ => rfl
      simp only [if_true, List.tail_nil]
      omega
    | cons a rest =>
      simp only [if_true, List.tail_cons, List.length_cons]
      omega

/-- Lets one worker go on until it is over.  Processes beyond those given say that there is no such
case. -/
def work (policy : Policy) (w : Worker) (b : Board) (attempts : List Attempt) : Board :=
  if _h : w.isOver = true then b
  else
    let next := w.act policy (fun _ => attempts.headD noCase) b
    next.1.work policy next.2 (if w.isRunning then attempts.tail else attempts)
termination_by 6 * attempts.length + w.rank
decreasing_by exact measure_act_lt (Bool.eq_false_iff.mpr ‹_›)

end Worker

namespace Plan

/-- Runs all cases.  If the worker is lost, it takes the time limit to end the run. -/
def run (p : Plan) (attempts : List Attempt) : Run :=
  (Worker.idle.work p.policy {} attempts).expire.run p

/-- What a run returns that is done: whether no case is known to have failed.  A report can never be
written. -/
def returned (p : Plan) (passed : Bool) : Except Failure Bool :=
  if p.report.isSome then .error .wrongType else .ok passed

/-- How a run ends. -/
def finish (p : Plan) (run : Run) : Logged Nat :=
  ⟨run.notices, do return if ← p.returned run.passed then 0 else 1⟩

end Plan

end BuildMeta.TestRun
