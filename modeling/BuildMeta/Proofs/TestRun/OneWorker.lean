import BuildMeta.Proofs.TestRun.Verdict

/-!
# `Proofs.TestRun.OneWorker` — the run of one worker is a run of a pool

A run lets one worker go on until it is over, with the processes in a list.  If the list holds what the
driver does in the cases that are handed out one after the other (`Answers`), this is what a pool of one
worker does under the only schedule there is (`exists_play`).  So what holds of every schedule holds
of the run.  There is nobody to go on where the worker is lost, and the time limit ends the run; so,
other than with several workers, a run that passes has passed all its cases (`run_passed_iff`).
-/

namespace BuildMeta.TestRun

open Worker (noCase)

variable {policy : Policy} {driver : Nat → Attempt} {w : Worker} {b : Board} {attempts : List Attempt}
  {case : Nat}

/-- The process of a case and those of the cases handed out after it end as in a list, and the first one
    beyond the list says that there is no such case. -/
def Answers (policy : Policy) (driver : Nat → Attempt) : Nat → List Attempt → Prop
  | case, [] => driver case = noCase
  | case, a :: rest => driver case = a ∧ Answers policy driver (policy.next (case + 1)).2 rest

theorem Answers.head (h : Answers policy driver case attempts) :
    driver case = attempts.headD noCase := by
  cases attempts with
  | nil => exact h
  | cons a rest => exact h.1

/-- What the list still holds is what the driver does next. -/
def Fits (policy : Policy) (driver : Nat → Attempt) (b : Board) (attempts : List Attempt) : Worker → Prop
  | .idle | .failing => Answers policy driver (policy.next (b.last + 1)).2 attempts
  | .handed case | .running case => b.last = case ∧ Answers policy driver case attempts
  | .stopping | .finished | .lost _ => True

theorem last_conclude (a : Attempt) : (Worker.conclude case b a).2.last = b.last := by
  cases a with
  | notStarted reason => rfl
  | ended status output disturbance =>
    unfold Worker.conclude
    cases disturbance <;> dsimp only <;> (split; rfl; split; rfl; split <;> rfl)

/-- After a case a worker goes on with the next one, or it stops or is lost. -/
theorem conclude_cases (case : Nat) (b : Board) (a : Attempt) : (Worker.conclude case b a).1 = .idle ∨
    (Worker.conclude case b a).1 = .failing ∨ (Worker.conclude case b a).1 = .stopping ∨
    (Worker.conclude case b a).1 = .lost case := by
  cases a with
  | notStarted reason => exact Or.inr (Or.inr (Or.inl rfl))
  | ended status output disturbance =>
    unfold Worker.conclude
    dsimp only
    split
    · simp
    · split
      · simp
      · split <;> simp

/-- A worker does with the driver what it does with the list, and goes on with the rest of it. -/
theorem Fits.act (h : Fits policy driver b attempts w) :
    w.act policy driver b = w.act policy (fun _ => attempts.headD noCase) b ∧
      Fits policy driver (w.act policy driver b).2 (if w.isRunning then attempts.tail else attempts)
        (w.act policy driver b).1 := by
  cases w with
  | idle =>
    refine ⟨rfl, ?_⟩
    cases hdone : b.done with
    | true =>
      rw [Worker.act, take_of_done policy hdone]
      trivial
    | false =>
      have htake : b.take policy = (some (policy.next (b.last + 1)).2, { b with
          last := (policy.next (b.last + 1)).2,
          events := b.events ++ (policy.next (b.last + 1)).1.map .skipped }) := by
        rw [Board.take, hdone]
        rfl
      rw [Worker.act, htake]
      exact ⟨rfl, h⟩
  | handed case => exact ⟨rfl, h⟩
  | running case =>
    obtain ⟨hlast, hanswers⟩ := h
    rw [Worker.act, Worker.act, ← hanswers.head]
    refine ⟨rfl, ?_⟩
    cases attempts with
    | nil =>
      -- Where the list ends the driver has no such case, and the worker stops.
      rw [show driver case = noCase from hanswers]
      trivial
    | cons a rest =>
      have hrest :
          Answers policy driver (policy.next ((Worker.conclude case b (driver case)).2.last + 1)).2
          rest := by
        rw [last_conclude, hlast]
        exact hanswers.2
      rcases conclude_cases case b (driver case) with hnext | hnext | hnext | hnext <;> rw [hnext]
      · exact hrest
      · exact hrest
      · trivial
      · trivial
  | failing => exact ⟨rfl, h⟩
  | stopping => exact ⟨rfl, trivial⟩
  | finished => exact ⟨rfl, trivial⟩
  | lost case => exact ⟨rfl, trivial⟩

/-- A worker that goes on alone takes all turns of its pool. -/
theorem exists_play_of_fits (h : Fits policy driver b attempts w) :
    ∃ turns w', w'.isOver = true ∧ (Pool.mk [w] b).play policy driver (List.replicate turns 0)
      = { workers := [w'], board := w.work policy b attempts } := by
  -- The work is by one act at a time, and each of them is a turn.
  fun_induction Worker.work policy w b attempts with
  | case1 w b attempts hover => exact ⟨0, w, hover, rfl⟩
  | case2 w b attempts hw next ih =>
    obtain ⟨hact, hfits⟩ := h.act
    rw [hact] at hfits
    obtain ⟨turns, w', hover, hturns⟩ := ih hfits
    refine ⟨turns + 1, w', hover, ?_⟩
    have hstep : (Pool.mk [w] b).step policy driver 0 = Pool.mk [next.1] next.2 := by
      rw [Pool.step_eq (w := w) rfl, hact]
      rfl
    rw [List.replicate_succ]
    show ((Pool.mk [w] b).step policy driver 0).play policy driver (List.replicate turns 0) = _
    rw [hstep, hturns]
    rfl

/-- **The run of one worker is a run of a pool of one worker, to its end.** -/
theorem exists_play (h : Answers policy driver (policy.next 1).2 attempts) :
    ∃ turns w', w'.isOver = true ∧ (Pool.start 1).play policy driver (List.replicate turns 0)
      = { workers := [w'], board := Worker.idle.work policy {} attempts } :=
  exists_play_of_fits h

/-- A run that its time limit ends has not passed. -/
theorem passed_expire_iff (b : Board) : b.expire.passed = true ↔ b.done = true ∧ b.passed = true := by
  unfold Board.expire
  cases b.done with
  | true => simp
  | false => simp [Board.fail, Board.stop, Board.record]

/-- A worker that is lost is so over a case of the driver that cannot be read. -/
theorem Sound.of_lost {d : Driver} {number : Nat} (h : Sound policy d [.lost case] b)
    (hcases : d.HasCases number) :
    1 ≤ case ∧ case ≤ number ∧ policy.skips case = false ∧ ¬ d.Readable case := by
  have hdue : Due policy b case := by
    by_contra hnot
    have hsettled := h.settled case
    rw [if_neg hnot, List.countP_singleton, Worker.holds, beq_self_eq_true, if_pos rfl] at hsettled
    omega
  have hnone := h.lost case (List.mem_singleton_self _)
  have hgoes : d.stops case = false := by
    rw [← Bool.not_eq_true]
    intro hstops
    rw [Driver.verdict?_of_stops hstops] at hnone
    cases hnone
  refine ⟨hdue.1, ?_, hdue.2.2, ?_⟩
  · by_contra hgt
    rw [(hcases.stops_iff hdue.1).mpr (Nat.lt_of_not_le hgt)] at hgoes
    cases hgoes
  · rw [Driver.verdict?_of_goes hgoes, Option.map_eq_none_iff] at hnone
    exact fun hreadable => hreadable hnone

/-- A worker that finishes alone has read the outputs of all cases that were due. -/
theorem Sound.readable_of_finished {d : Driver} {number c : Nat} (h : Sound policy d [.finished] b)
    (hcases : d.HasCases number) (hle : c ≤ number) (hdue : Due policy b c) : d.Readable c := by
  have hfree : Worker.finished.holds c = false := rfl
  have hsettled := h.settled c
  rw [if_pos hdue, List.countP_singleton, hfree, if_neg Bool.false_ne_true, Nat.zero_add] at hsettled
  obtain ⟨e, he, hsettles⟩ := List.countP_pos_iff.mp (Nat.lt_of_lt_of_eq Nat.zero_lt_one hsettled.symm)
  have hverdict := h.verdict e he c hsettles
  rw [Driver.verdict?_of_goes (hcases.goes hdue.1 hle)] at hverdict
  obtain ⟨text, htext, _⟩ := Option.map_eq_some_iff.mp hverdict
  rw [Driver.Readable, htext]
  exact Option.some_ne_none _

/-- **A run passes if and only if the cases of the driver do that are not skipped**, with outputs
    that can be read. -/
theorem run_passed_iff {p : Plan} {d : Driver} {number : Nat} (hcases : d.HasCases number)
    (h : Answers p.policy d.attempt (p.policy.next 1).2 attempts) :
    (p.run attempts).passed = true ↔
      ∀ c, 1 ≤ c → c ≤ number → p.policy.skips c = false → d.Readable c ∧ d.status c = 0 := by
  obtain ⟨turns, w, hover, hplay⟩ := exists_play h
  have hstart : Sound p.policy d (Pool.start 1).workers (Pool.start 1).board := sound_start p.policy d 1
  have hsound := Pool.sound_play hstart (List.replicate turns 0)
  rw [hplay] at hsound
  show (Worker.idle.work p.policy {} attempts).expire.passed = true ↔ _
  generalize Worker.idle.work p.policy {} attempts = b at hsound
  rw [passed_expire_iff]
  cases w with
  | finished =>
    have hdone : b.done = true := hsound.finished.mp (List.mem_singleton_self _)
    have hlast := hsound.number_lt hcases hdone
    have hpassed := hsound.passed_iff hcases (fun w hw => List.mem_singleton.mp hw ▸ rfl) hlast
    rw [and_iff_right hdone, hpassed]
    constructor
    · intro hzero c hc hle hskips
      have hreadable :=
        hsound.readable_of_finished hcases hle ⟨hc, Nat.le_of_lt (Nat.lt_of_le_of_lt hle hlast), hskips⟩
      exact ⟨hreadable, hzero c hc hle hskips hreadable⟩
    · exact fun hzero c hc hle hskips _ => (hzero c hc hle hskips).2
  | lost c =>
    have hdone : ¬ b.done = true := fun hdone => by simpa using hsound.finished.mpr hdone
    obtain ⟨hc, hle, hskips, hunread⟩ := hsound.of_lost hcases
    constructor
    · exact fun hrun => absurd hrun.1 hdone
    · exact fun hzero => absurd (hzero c hc hle hskips).1 hunread
  | _ => cases hover

end BuildMeta.TestRun
