import BuildMeta.Proofs.TestRun.Skipping
import BuildMeta.TestRun.Pool
import Mathlib.Data.List.Count

/-!
# `Proofs.TestRun.Verdict` — what every schedule gives

A worker's turn is one of eight moves (`Move`).  `Sound` is what every move preserves: each case that was
handed out is held by one worker or settled by one event (`Sound.settled`), skipped cases are
recorded once, and the board knows of each failure that no worker is about to mark.  So it holds
after every schedule (`sound_play`), and once the run is over it determines what is recorded.

A case whose output cannot be read takes its worker with it, and nothing is recorded of it.  So the
records and the result are what they should be exactly if all outputs can be read and no report is
asked for (`play_verdict_iff`).
-/

namespace BuildMeta.TestRun

/-- How a test driver ends, by case. -/
structure Driver where
  status : Nat → Int
  output : Nat → Output

namespace Driver

variable (d : Driver) (case : Nat)

/-- The process of a case, which nothing disturbs. -/
def attempt : Attempt := .ended (d.status case) (d.output case) none

/-- Whether the process of a case ends the run. -/
def stops : Bool := Plan.endsCases (d.status case) || case > Plan.lastCase

/-- The output of a case can be read. -/
def Readable : Prop := (d.output case).text? ≠ none

/-- What is recorded of a case that was run, if its output reads as a text. -/
def result (text : String) : Event :=
  if d.status case = 0 then .passed case text else .failed case (d.status case) text

/-- What is recorded of a case; nothing is if the output cannot be read. -/
def verdict? : Option Event :=
  if d.stops case then some (.absent case) else (d.output case).text?.map (d.result case)

/-- What a worker does after a case that was recorded. -/
def sequel : Worker :=
  if d.stops case then .stopping else if d.status case = 0 then .idle else .failing

variable {d case}

theorem verdict?_of_stops (h : d.stops case = true) : d.verdict? case = some (.absent case) := if_pos h

theorem verdict?_of_goes (h : d.stops case = false) :
    d.verdict? case = (d.output case).text?.map (d.result case) := by
  rw [verdict?, h, if_neg Bool.false_ne_true]

/-- A verdict is that there is no such case, or what became of it. -/
theorem verdict?_cases {e : Event} (h : d.verdict? case = some e) :
    d.stops case = true ∧ e = .absent case ∨
      d.stops case = false ∧ ∃ text, (d.output case).text? = some text ∧ e = d.result case text := by
  cases hstops : d.stops case with
  | true =>
    rw [verdict?_of_stops hstops] at h
    exact Or.inl ⟨rfl, (Option.some.inj h).symm⟩
  | false =>
    rw [verdict?_of_goes hstops] at h
    obtain ⟨text, htext, rfl⟩ := Option.map_eq_some_iff.mp h
    exact Or.inr ⟨rfl, text, htext, rfl⟩

/-- A driver with the cases up to a number, none of which ends the run. -/
structure HasCases (d : Driver) (number : Nat) : Prop where
  le : number ≤ Plan.lastCase
  above : ∀ c, number < c → d.status c = 255
  within : ∀ c, 1 ≤ c → c ≤ number → Plan.endsCases (d.status c) = false

/-- A driver with some cases stops exactly beyond the last of them. -/
theorem HasCases.stops_iff {d : Driver} {number c : Nat} (h : d.HasCases number) (hc : 1 ≤ c) :
    d.stops c = true ↔ number < c := by
  unfold stops
  constructor
  · intro hstops
    by_contra hle
    have hlast : ¬c > Plan.lastCase := fun hgt => hle (Nat.lt_of_le_of_lt h.le hgt)
    rw [h.within c hc (Nat.le_of_not_lt hle), decide_eq_false hlast] at hstops
    cases hstops
  · intro hlt
    rw [h.above c hlt]
    rfl

theorem HasCases.goes {d : Driver} {number c : Nat} (h : d.HasCases number) (hc : 1 ≤ c)
    (hle : c ≤ number) :
    d.stops c = false := by
  rw [← Bool.not_eq_true, h.stops_iff hc]
  exact Nat.not_lt.mpr hle

end Driver

/-! ## Moves -/

/-- What a worker can do: `Move policy d w b w' b'` takes it from `w` to `w'` and the board from `b` to
    `b'`. -/
inductive Move (policy : Policy) (d : Driver) : Worker → Board → Worker → Board → Prop
  | leave {b : Board} (hdone : b.done = true) : Move policy d .idle b .finished b
  | take {b : Board} {count : Nat} (hdone : b.done = false)
      (hskips : ∀ n ∈ List.range' (b.last + 1) count, policy.skips n = true)
      (hnext : policy.skips (b.last + 1 + count) = false) :
      Move policy d .idle b (.handed (b.last + 1 + count))
        { b with
          last := b.last + 1 + count
          events := b.events ++ (List.range' (b.last + 1) count).map .skipped }
  | start {b : Board} {case : Nat} :
      Move policy d (.handed case) b (.running case) (b.record (.started case))
  | conclude {b : Board} {case : Nat} {e : Event} (hverdict : d.verdict? case = some e) :
      Move policy d (.running case) b (d.sequel case) (b.record e)
  | lose {b : Board} {case : Nat} (hverdict : d.verdict? case = none) :
      Move policy d (.running case) b (.lost case) b
  | fail {b : Board} : Move policy d .failing b .idle b.fail
  | stop {b : Board} : Move policy d .stopping b .finished b.stop
  | rest {b : Board} {w : Worker} (hover : w.isOver = true) : Move policy d w b w b

variable {policy : Policy} {d : Driver} {w w' : Worker} {b b' : Board} {c : Nat}

/-- A worker records the verdict on its case, or is lost if there is none. -/
theorem conclude_attempt : Worker.conclude c b (d.attempt c) =
    match d.verdict? c with
    | none => (.lost c, b)
    | some e => (d.sequel c, b.record e) := by
  unfold Worker.conclude Driver.attempt
  dsimp only
  rw [show (Plan.endsCases (d.status c) || decide (c > Plan.lastCase)) = d.stops c from rfl]
  cases hstops : d.stops c with
  | true =>
    rw [if_pos rfl, Driver.verdict?_of_stops hstops, Driver.sequel, if_pos hstops]
  | false =>
    rw [if_neg Bool.false_ne_true, Driver.verdict?_of_goes hstops, Driver.sequel, hstops,
      if_neg Bool.false_ne_true]
    cases (d.output c).text? with
    | none => rfl
    | some text =>
      simp only [Option.map_some, Driver.result, beq_iff_eq]
      split <;> rfl

theorem take_of_done (policy : Policy) (hdone : b.done = true) : b.take policy = (none, b) := by
  rw [Board.take, if_pos hdone]

/-- Taking goes over cases that are skipped, and hands out the next one that is not. -/
theorem take_of_not_done (policy : Policy) (hdone : b.done = false) :
    ∃ count, b.take policy = (some (b.last + 1 + count), { b with
        last := b.last + 1 + count
        events := b.events ++ (List.range' (b.last + 1) count).map .skipped }) ∧
      (∀ n ∈ List.range' (b.last + 1) count, policy.skips n = true) ∧
      policy.skips (b.last + 1 + count) = false := by
  obtain ⟨count, hnext, hskips, hend⟩ := policy.next_spec (b.last + 1)
  refine ⟨count, ?_, hskips, hend⟩
  rw [Board.take, hdone, hnext]
  rfl

/-- A turn is a move. -/
theorem move_act (policy : Policy) (d : Driver) (w : Worker) (b : Board) :
    Move policy d w b (w.act policy d.attempt b).1 (w.act policy d.attempt b).2 := by
  cases w with
  | idle =>
    cases hdone : b.done with
    | true =>
      rw [Worker.act, take_of_done policy hdone]
      exact .leave hdone
    | false =>
      obtain ⟨count, htake, hskips, hend⟩ := take_of_not_done policy hdone
      rw [Worker.act, htake]
      exact .take hdone hskips hend
  | handed case => exact .start
  | running case =>
    rw [Worker.act, conclude_attempt]
    cases hverdict : d.verdict? case with
    | none => exact .lose hverdict
    | some e => exact .conclude hverdict
  | failing => exact .fail
  | stopping => exact .stop
  | finished => exact .rest rfl
  | lost case => exact .rest rfl

/-! ## What every move preserves -/

/-- Whether a worker holds a case, be it that it is lost over the case. -/
def Worker.holds (c : Nat) : Worker → Bool
  | .handed case | .running case | .lost case => case == c
  | _ => false

/-- Whether an event says what became of a case. -/
def Event.settles (c : Nat) : Event → Bool
  | .passed case _ | .failed case _ _ | .absent case => case == c
  | _ => false

/-- Whether an event is the failure of a case. -/
def Event.isFailure : Event → Bool
  | .failed .. => true
  | _ => false

/-- Whether a case was handed out by the time that the last one was. -/
def Due (policy : Policy) (b : Board) (c : Nat) : Prop := 1 ≤ c ∧ c ≤ b.last ∧ policy.skips c = false

instance : Decidable (Due policy b c) := inferInstanceAs (Decidable (_ ∧ _ ∧ _))

/-- What holds of the workers and their board after every move. -/
structure Sound (policy : Policy) (d : Driver) (ws : List Worker) (b : Board) : Prop where
  /-- A case that is due is held by one worker or settled by one event, and no other case is. -/
  settled : ∀ c, ws.countP (·.holds c) + b.events.countP (·.settles c) = if Due policy b c then 1 else 0
  skipped : ∀ c, b.events.count (.skipped c)
    = if 1 ≤ c ∧ c ≤ b.last ∧ policy.skips c = true then 1 else 0
  verdict : ∀ e ∈ b.events, ∀ c, e.settles c = true → d.verdict? c = some e
  lost : ∀ c, .lost c ∈ ws → d.verdict? c = none
  /-- The board knows of a failure, unless the worker that met it is about to mark it. -/
  failure : b.events.any Event.isFailure = true ↔ b.passed = false ∨ .failing ∈ ws
  absent : b.done = true ∨ .stopping ∈ ws → ∃ c, .absent c ∈ b.events
  finished : .finished ∈ ws ↔ b.done = true

/-- At the start nobody holds a case, and nothing is due. -/
theorem sound_start (policy : Policy) (d : Driver) (jobs : Nat) :
    Sound policy d (List.replicate jobs .idle) {} where
  settled := by
    intro c
    have hdue : ¬Due policy {} c := fun h => absurd (Nat.le_trans h.1 h.2.1) (by decide)
    rw [if_neg hdue]
    simp [Worker.holds, List.countP_replicate]
  skipped := by
    intro c
    rw [if_neg fun h => absurd (Nat.le_trans h.1 h.2.1) (by decide)]
    rfl
  verdict := by simp
  lost := by simp [List.mem_replicate]
  failure := by simp [List.mem_replicate]
  absent := by simp [List.mem_replicate]
  finished := by simp [List.mem_replicate]

@[simp] theorem Driver.holds_sequel (d : Driver) (case c : Nat) : (d.sequel case).holds c = false := by
  unfold sequel
  split
  · rfl
  · split <;> rfl

theorem Driver.settles_verdict {case : Nat} {e : Event} (hverdict : d.verdict? case = some e) (c : Nat) :
    e.settles c = (case == c) := by
  rcases verdict?_cases hverdict with ⟨_, rfl⟩ | ⟨_, text, _, rfl⟩
  · rfl
  · unfold result
    split <;> rfl

/-- Handing out a case makes it due, and no other. -/
theorem due_take {count : Nat} {events : List Event}
    (hskips : ∀ n ∈ List.range' (b.last + 1) count, policy.skips n = true)
    (hnext : policy.skips (b.last + 1 + count) = false) :
    Due policy { b with last := b.last + 1 + count, events } c
      ↔ Due policy b c ∨ b.last + 1 + count = c := by
  unfold Due
  dsimp only
  constructor
  · rintro ⟨hpos, hle, hskip⟩
    by_cases hlast : c ≤ b.last
    · exact Or.inl ⟨hpos, hlast, hskip⟩
    · by_cases hc : b.last + 1 + count = c
      · exact Or.inr hc
      · -- A case in between was passed over.
        have hin : c ∈ List.range' (b.last + 1) count := List.mem_range'_1.mpr ⟨by omega, by omega⟩
        rw [hskips c hin] at hskip
        cases hskip
  · rintro (⟨hpos, hle, hskip⟩ | rfl)
    · exact ⟨hpos, by omega, hskip⟩
    · exact ⟨by omega, Nat.le_refl _, hnext⟩

section Moves

variable {front back : List Worker}

/-- A case that is due is held by one worker or settled by one event, and no move changes that. -/
theorem Sound.settled_of_move (h : Sound policy d (front ++ w :: back) b)
    (hmove : Move policy d w b w' b') :
    ∀ c, (front ++ w' :: back).countP (·.holds c) + b'.events.countP (·.settles c)
      = if Due policy b' c then 1 else 0 := by
  intro c
  have hold := h.settled c
  rw [List.countP_append, List.countP_cons] at hold ⊢
  cases hmove with
  | leave => exact hold
  | @take _ count hdone hskips hnext =>
    have hnone : (List.countP (·.settles c) ((List.range' (b.last + 1) count).map Event.skipped))
        = 0 := by
      simp [List.countP_map, Event.settles]
    have hapart : Due policy b c → b.last + 1 + count ≠ c := fun hdue => by
      have hle := hdue.2.1
      omega
    have hidle : Worker.idle.holds c = false := rfl
    have hheld : (Worker.handed (b.last + 1 + count)).holds c = (b.last + 1 + count == c) := rfl
    rw [hidle] at hold
    rw [hheld, List.countP_append, hnone]
    simp only [due_take hskips hnext, beq_iff_eq, Bool.false_eq_true, if_false] at hold ⊢
    -- The case that is handed out was not due before, so that nobody holds it and nothing settles it.
    by_cases hc : b.last + 1 + count = c
    · rw [if_neg fun hdue => hapart hdue hc] at hold
      rw [if_pos hc, if_pos (Or.inr hc)]
      omega
    · simp only [hc, or_false, if_false]
      omega
  | start =>
    rw [Board.record, List.countP_append]
    exact hold
  | @conclude _ case e hverdict =>
    -- The case goes from the worker to the events, and the sum stays what it was.
    rw [Board.record, List.countP_append, List.countP_singleton, Driver.settles_verdict hverdict,
      d.holds_sequel]
    have hheld : (Worker.running case).holds c = (case == c) := rfl
    have hsame : Due policy { b with events := b.events ++ [e] } c ↔ Due policy b c := Iff.rfl
    rw [hheld] at hold
    simp only [hsame, Bool.false_eq_true, if_false]
    omega
  | lose | fail | stop | rest => exact hold

theorem count_skipped (first count c : Nat) :
    ((List.range' first count).map Event.skipped).count (.skipped c)
      = if first ≤ c ∧ c < first + count then 1 else 0 := by
  have hinjective : Function.Injective Event.skipped := fun _ _ h => Event.skipped.inj h
  rw [List.count_map_of_injective _ _ hinjective]
  split
  · next hin => exact List.count_eq_one_of_mem List.nodup_range' (List.mem_range'_1.mpr hin)
  · next hout => exact List.count_eq_zero_of_not_mem fun hin => hout (List.mem_range'_1.mp hin)

/-- A case that is skipped is recorded when it is gone over, and never again. -/
theorem Sound.skipped_of_move (h : Sound policy d (front ++ w :: back) b)
    (hmove : Move policy d w b w' b') :
    ∀ c, b'.events.count (.skipped c)
      = if 1 ≤ c ∧ c ≤ b'.last ∧ policy.skips c = true then 1 else 0 := by
  intro c
  have hold := h.skipped c
  cases hmove with
  | leave => exact hold
  | @take _ count hdone hskips hnext =>
    dsimp only
    rw [List.count_append, hold, count_skipped]
    by_cases hin : c ∈ List.range' (b.last + 1) count
    · have hskip := hskips c hin
      rw [List.mem_range'_1] at hin
      rw [if_neg fun hdue => by omega, if_pos hin, if_pos ⟨by omega, by omega, hskip⟩]
    · rw [List.mem_range'_1] at hin
      rw [if_neg hin, Nat.add_zero]
      -- The case that is handed out is not skipped.
      have hlast : policy.skips c = true → c ≠ b.last + 1 + count := by
        rintro hskip rfl
        rw [hnext] at hskip
        cases hskip
      refine if_congr (and_congr_right fun hpos => ?_) rfl rfl
      constructor
      · rintro ⟨hle, hskip⟩
        exact ⟨by omega, hskip⟩
      · rintro ⟨hle, hskip⟩
        have hne := hlast hskip
        exact ⟨by omega, hskip⟩
  | start =>
    rw [Board.record, List.count_append, hold]
    rfl
  | @conclude _ case e hverdict =>
    have hother : e ≠ .skipped c := by
      rintro rfl
      have hsettles := Driver.settles_verdict hverdict case
      rw [beq_self_eq_true] at hsettles
      cases hsettles
    rw [Board.record, List.count_append, hold, List.count_singleton, beq_false_of_ne hother]
    rfl
  | lose | fail | stop | rest => exact hold

/-- What is recorded of a case is the verdict on it. -/
theorem Sound.verdict_of_move (h : Sound policy d (front ++ w :: back) b)
    (hmove : Move policy d w b w' b') :
    ∀ e ∈ b'.events, ∀ c, e.settles c = true → d.verdict? c = some e := by
  intro e he c hsettles
  cases hmove with
  | leave => exact h.verdict e he c hsettles
  | take =>
    rcases List.mem_append.mp he with he | he
    · exact h.verdict e he c hsettles
    · obtain ⟨n, _, rfl⟩ := List.mem_map.mp he
      cases hsettles
  | start =>
    rcases List.mem_append.mp he with he | he
    · exact h.verdict e he c hsettles
    · rw [List.mem_singleton.mp he] at hsettles
      cases hsettles
  | @conclude _ case _ hverdict =>
    rcases List.mem_append.mp he with he | he
    · exact h.verdict e he c hsettles
    · rw [List.mem_singleton.mp he, Driver.settles_verdict hverdict, beq_iff_eq] at hsettles
      rw [List.mem_singleton.mp he, ← hsettles, hverdict]
  | lose | fail | stop | rest => exact h.verdict e he c hsettles

/-- After a verdict no worker is over. -/
theorem Driver.ne_sequel (d : Driver) (case : Nat) (hover : w.isOver = true) : w ≠ d.sequel case := by
  rintro rfl
  unfold sequel at hover
  split at hover
  · cases hover
  · split at hover <;> cases hover

/-- A worker is lost only with a case on which there is no verdict. -/
theorem Sound.lost_of_move (h : Sound policy d (front ++ w :: back) b)
    (hmove : Move policy d w b w' b') :
    ∀ c, .lost c ∈ front ++ w' :: back → d.verdict? c = none := by
  intro c hin
  have hold := h.lost c
  simp only [List.mem_append, List.mem_cons] at hold hin
  cases hmove with
  | lose hverdict =>
    rcases hin with hin | heq | hin
    · exact hold (Or.inl hin)
    · exact Worker.lost.inj heq ▸ hverdict
    · exact hold (Or.inr (Or.inr hin))
  | @conclude _ case _ _ =>
    have hsequel : .lost c ≠ d.sequel case := d.ne_sequel case rfl
    exact hold (by simpa [hsequel] using hin)
  | rest => exact hold hin
  | _ => exact hold (by simpa using hin)

/-- A worker is about to mark the failure of a case if that is the verdict. -/
theorem Driver.isFailure_verdict {case : Nat} {e : Event} (hverdict : d.verdict? case = some e) :
    e.isFailure = true ↔ d.sequel case = .failing := by
  unfold sequel
  rcases verdict?_cases hverdict with ⟨hstops, rfl⟩ | ⟨hgoes, text, _, rfl⟩
  · simp [hstops, Event.isFailure]
  · rw [hgoes, if_neg Bool.false_ne_true]
    unfold result
    split <;> simp [Event.isFailure]

/-- A failure is recorded exactly if the board has noted it, or a worker is about to. -/
theorem Sound.failure_of_move (h : Sound policy d (front ++ w :: back) b)
    (hmove : Move policy d w b w' b') :
    b'.events.any Event.isFailure = true ↔ b'.passed = false ∨ .failing ∈ front ++ w' :: back := by
  have hold := h.failure
  simp only [List.mem_append, List.mem_cons] at hold ⊢
  cases hmove with
  | leave => simpa using hold
  | take => simpa [List.any_map, Function.comp_def, Event.isFailure] using hold
  | start => simpa [Event.isFailure] using hold
  | @conclude _ case e hverdict =>
    have hfailing := Driver.isFailure_verdict hverdict
    simp only [Board.events_record, List.any_append, List.any_cons, List.any_nil, Bool.or_false,
      Bool.or_eq_true, hold, hfailing, Board.passed_record, reduceCtorEq, false_or]
    tauto
  | lose => simpa using hold
  | fail => simpa [Board.fail] using hold
  | stop => simpa using hold
  | rest => exact hold

/-- A worker is about to mark the run as done if there is no such case. -/
theorem Driver.eq_absent_of_stopping {case : Nat} {e : Event} (hverdict : d.verdict? case = some e)
    (h : d.sequel case = .stopping) : e = .absent case := by
  rcases verdict?_cases hverdict with ⟨_, rfl⟩ | ⟨hgoes, _⟩
  · rfl
  · rw [sequel, hgoes, if_neg Bool.false_ne_true] at h
    split at h <;> cases h

/-- The end is reached only after a case was found to be absent. -/
theorem Sound.absent_of_move (h : Sound policy d (front ++ w :: back) b)
    (hmove : Move policy d w b w' b') :
    b'.done = true ∨ .stopping ∈ front ++ w' :: back → ∃ c, .absent c ∈ b'.events := by
  have hold := h.absent
  simp only [List.mem_append, List.mem_cons] at hold ⊢
  cases hmove with
  | leave => simpa using hold
  | take =>
    intro hstop
    obtain ⟨n, hn⟩ := hold (by simpa using hstop)
    exact ⟨n, List.mem_append_left _ hn⟩
  | start =>
    intro hstop
    obtain ⟨n, hn⟩ := hold (by simpa using hstop)
    exact ⟨n, List.mem_append_left _ hn⟩
  | @conclude _ case e hverdict =>
    intro hstop
    by_cases hsequel : d.sequel case = .stopping
    · refine ⟨case, List.mem_append_right _ ?_⟩
      rw [Driver.eq_absent_of_stopping hverdict hsequel]
      exact List.mem_singleton_self _
    · obtain ⟨n, hn⟩ := hold (by simpa [Ne.symm hsequel] using hstop)
      exact ⟨n, List.mem_append_left _ hn⟩
  | lose => simpa using hold
  | fail => simpa using hold
  | stop => exact fun _ => hold (Or.inr (Or.inr (Or.inl rfl)))
  | rest => exact hold

/-- Workers finish exactly once the end is reached. -/
theorem Sound.finished_of_move (h : Sound policy d (front ++ w :: back) b)
    (hmove : Move policy d w b w' b') :
    .finished ∈ front ++ w' :: back ↔ b'.done = true := by
  have hold := h.finished
  simp only [List.mem_append, List.mem_cons] at hold ⊢
  cases hmove with
  | leave hdone => simp [hdone]
  | take => simpa using hold
  | start => simpa using hold
  | @conclude _ case e hverdict =>
    have hsequel : .finished ≠ d.sequel case := d.ne_sequel case rfl
    simpa [hsequel] using hold
  | lose => simpa using hold
  | fail => simpa using hold
  | stop => simp [Board.stop]
  | rest => exact hold

/-- **Every move preserves what holds of the workers and the board.** -/
theorem Sound.of_move (h : Sound policy d (front ++ w :: back) b) (hmove : Move policy d w b w' b') :
    Sound policy d (front ++ w' :: back) b' :=
  ⟨h.settled_of_move hmove, h.skipped_of_move hmove, h.verdict_of_move hmove, h.lost_of_move hmove,
    h.failure_of_move hmove, h.absent_of_move hmove, h.finished_of_move hmove⟩

end Moves

/-! ## Runs -/

namespace Pool

variable {pool : Pool} {schedule : List Nat}

theorem step_eq {driver : Nat → Attempt} {worker : Nat} (hw : pool.workers[worker]? = some w) :
    pool.step policy driver worker
      = { workers := pool.workers.set worker (w.act policy driver pool.board).1
          board := (w.act policy driver pool.board).2 } := by
  rw [step, hw]

/-- One step of a pool is a move of one worker, or none, so it keeps the invariant. -/
theorem sound_step (h : Sound policy d pool.workers pool.board) (worker : Nat) :
    Sound policy d (pool.step policy d.attempt worker).workers
      (pool.step policy d.attempt worker).board := by
  cases hw : pool.workers[worker]? with
  | none =>
    rw [step, hw]
    exact h
  | some w =>
    obtain ⟨hlt, hget⟩ := List.getElem?_eq_some_iff.mp hw
    have hset : ∀ v, pool.workers.set worker v
        = pool.workers.take worker ++ v :: pool.workers.drop (worker + 1) := fun v => by
      rw [List.set_eq_take_append_cons_drop, if_pos hlt]
    have hsplit : pool.workers = pool.workers.take worker ++ w :: pool.workers.drop (worker + 1) := by
      rw [← hset, ← hget, List.set_getElem_self]
    rw [hsplit] at h
    rw [step_eq hw, hset]
    exact h.of_move (move_act policy d w pool.board)

/-- What holds after every move holds after every schedule. -/
theorem sound_play (h : Sound policy d pool.workers pool.board) (schedule : List Nat) :
    Sound policy d (pool.play policy d.attempt schedule).workers
      (pool.play policy d.attempt schedule).board := by
  induction schedule generalizing pool with
  | nil => exact h
  | cons worker rest ih => exact ih (sound_step h worker)

/-- The cases after the last one and up to another are skipped, and that one is not. -/
structure Follows (policy : Policy) (last next : Nat) : Prop where
  lt : last < next
  skips : ∀ n, last < n → n < next → policy.skips n = true
  not_skips : policy.skips next = false

/-- A turn hands out the case that follows the last one, or none. -/
theorem handout_cases (policy : Policy) (d : Driver) (pool : Pool) (worker : Nat) :
    (pool.handout? policy worker = none ∧
        (pool.step policy d.attempt worker).board.last = pool.board.last) ∨
      ∃ case, pool.handout? policy worker = some case ∧
        (pool.step policy d.attempt worker).board.last = case ∧ Follows policy pool.board.last case := by
  cases hw : pool.workers[worker]? with
  | none =>
    rw [handout?, step, hw]
    exact Or.inl ⟨rfl, rfl⟩
  | some w =>
    rw [handout?, step_eq hw, hw]
    cases w with
    | idle =>
      rw [if_pos rfl]
      cases hdone : pool.board.done with
      | true =>
        rw [Worker.act, take_of_done policy hdone]
        exact Or.inl ⟨rfl, rfl⟩
      | false =>
        obtain ⟨count, htake, hskips, hend⟩ := take_of_not_done policy hdone
        rw [Worker.act, htake]
        refine Or.inr ⟨_, rfl, rfl, by omega, fun n hlow hhigh => ?_, hend⟩
        exact hskips n (List.mem_range'_1.mpr ⟨by omega, by omega⟩)
    | running case =>
      rw [Worker.act, conclude_attempt]
      cases d.verdict? case <;> exact Or.inl ⟨rfl, rfl⟩
    | handed case => exact Or.inl ⟨rfl, rfl⟩
    | failing => exact Or.inl ⟨rfl, rfl⟩
    | stopping => exact Or.inl ⟨rfl, rfl⟩
    | finished => exact Or.inl ⟨rfl, rfl⟩
    | lost case => exact Or.inl ⟨rfl, rfl⟩

/-- **The cases that are handed out are those that are not skipped, each once and in order.** -/
theorem handouts_play (policy : Policy) (d : Driver) (pool : Pool) (schedule : List Nat) :
    ((pool.handouts policy d.attempt schedule).map Prod.snd).Pairwise (· < ·) ∧
      pool.board.last ≤ (pool.play policy d.attempt schedule).board.last ∧
      ∀ c, c ∈ (pool.handouts policy d.attempt schedule).map Prod.snd ↔
        pool.board.last < c ∧ c ≤ (pool.play policy d.attempt schedule).board.last ∧
        policy.skips c = false := by
  -- The first turn hands out the least of the cases, and the last case of its board bounds the others.
  induction schedule generalizing pool with
  | nil => exact ⟨List.Pairwise.nil, Nat.le_refl _, fun c => by simp [handouts, play]; omega⟩
  | cons worker rest ih =>
    obtain ⟨hsorted, hle, hmem⟩ := ih (pool.step policy d.attempt worker)
    have hplay : pool.play policy d.attempt (worker :: rest)
        = (pool.step policy d.attempt worker).play policy d.attempt rest := rfl
    rw [handouts, hplay, List.map_append]
    rcases handout_cases policy d pool worker with ⟨hnone, hlast⟩ | ⟨case, hsome, hlast, hfollows⟩
    · rw [hnone]
      rw [hlast] at hle hmem
      exact ⟨hsorted, hle, hmem⟩
    · rw [hsome]
      rw [hlast] at hle hmem
      have hlt := hfollows.lt
      refine ⟨?_, by omega, fun c => ?_⟩
      · exact List.pairwise_cons.mpr ⟨fun c hc => ((hmem c).mp hc).1, hsorted⟩
      · have hcons :
            c ∈ List.map Prod.snd (Option.map (fun case => (worker, case)) (some case)).toList ++
            (((pool.step policy d.attempt worker).handouts policy d.attempt rest).map Prod.snd)
            ↔ c = case ∨ c ∈ (((pool.step policy d.attempt worker).handouts policy d.attempt rest).map
              Prod.snd) := List.mem_cons
        rw [hcons, hmem]
        constructor
        · rintro (rfl | ⟨hlow, hhigh, hskip⟩)
          · exact ⟨hlt, hle, hfollows.not_skips⟩
          · exact ⟨by omega, hhigh, hskip⟩
        · rintro ⟨hlow, hhigh, hskip⟩
          rcases Nat.lt_trichotomy c case with hc | hc | hc
          · rw [hfollows.skips c hlow hc] at hskip
            cases hskip
          · exact Or.inl hc
          · exact Or.inr ⟨hc, hhigh, hskip⟩

end Pool

/-! ## The verdict -/

/-- Whether an event is the record of a case. -/
def Event.tellsOf (c : Nat) : Event → Bool
  | .skipped case | .passed case _ | .failed case _ _ | .absent case => case == c
  | _ => false

theorem countP_tellsOf (events : List Event) (c : Nat) :
    events.countP (·.tellsOf c) = events.countP (·.settles c) + events.count (.skipped c) := by
  induction events with
  | nil => rfl
  | cons e rest ih =>
    rw [List.countP_cons, List.countP_cons, List.count_cons, ih]
    cases e <;> simp [Event.tellsOf, Event.settles] <;> omega

theorem tellsOf_iff {e : Event} : e.tellsOf c = true ↔ e.settles c = true ∨ e = .skipped c := by
  cases e <;> simp [Event.tellsOf, Event.settles]

theorem filter_eq_singleton {α : Type} {p : α → Bool} {xs : List α} {a : α} (hcount : xs.countP p = 1)
    (h : ∀ x ∈ xs, p x = true → x = a) : xs.filter p = [a] := by
  rw [List.countP_eq_length_filter] at hcount
  obtain ⟨x, hx⟩ := List.length_eq_one_iff.mp hcount
  have hin : x ∈ xs.filter p := hx ▸ List.mem_singleton_self x
  obtain ⟨hmem, hp⟩ := List.mem_filter.mp hin
  rw [hx, h x hmem hp]

namespace Sound

variable {ws : List Worker} {number : Nat}

/-- Only cases that are due are settled. -/
theorem due_of_settles (h : Sound policy d ws b) {e : Event} (he : e ∈ b.events)
    (hsettles : e.settles c = true) : Due policy b c := by
  have hcount : 0 < b.events.countP (·.settles c) := List.countP_pos_iff.mpr ⟨e, he, hsettles⟩
  by_contra hnot
  have hzero := h.settled c
  rw [if_neg hnot] at hzero
  omega

/-- If the run is done, the cases of the driver have all been handed out. -/
theorem number_lt (h : Sound policy d ws b) (hcases : d.HasCases number) (hdone : b.done = true) :
    number < b.last := by
  obtain ⟨c, hc⟩ := h.absent (Or.inl hdone)
  have hsettles : (Event.absent c).settles c = true := beq_self_eq_true c
  have hdue := h.due_of_settles hc hsettles
  refine Nat.lt_of_lt_of_le ((hcases.stops_iff hdue.1).mp ?_) hdue.2.1
  rcases Driver.verdict?_cases (h.verdict _ hc c hsettles) with ⟨hstops, _⟩ | ⟨_, text, _, hresult⟩
  · exact hstops
  · unfold Driver.result at hresult
    split at hresult <;> cases hresult

section Over

variable (h : Sound policy d ws b) (hcases : d.HasCases number) (hover : ∀ w ∈ ws, w.isOver = true)
  (hlast : number < b.last)

include h hcases hover

/-- A case that can be read is held by nobody once the workers are over. -/
theorem countP_holds (hc : 1 ≤ c) (hle : c ≤ number) (hreadable : d.Readable c) :
    ws.countP (·.holds c) = 0 := by
  refine List.countP_eq_zero.mpr fun w hw hholds => ?_
  have hwork := hover w hw
  cases w with
  | lost case =>
    obtain rfl : case = c := beq_iff_eq.mp hholds
    have hnone := h.lost case hw
    rw [Driver.verdict?_of_goes (hcases.goes hc hle), Option.map_eq_none_iff] at hnone
    exact hreadable hnone
  | finished => cases hholds
  | _ => cases hwork

include hlast

/-- Once the workers are over, each case of the driver has one record, unless its output cannot be
    read. -/
theorem filter_tellsOf (hc : 1 ≤ c) (hle : c ≤ number) :
    b.events.filter (·.tellsOf c) = if policy.skips c = true then [.skipped c]
      else ((d.output c).text?.map (d.result c)).toList := by
  have hsettled := h.settled c
  have hskipped := h.skipped c
  have hreached : c ≤ b.last := by omega
  simp only [Due, hc, hreached, true_and] at hsettled hskipped
  have hverdict := Driver.verdict?_of_goes (hcases.goes hc hle)
  cases hskips : policy.skips c with
  | true =>
    rw [hskips] at hsettled hskipped
    refine filter_eq_singleton ?_ ?_
    · rw [countP_tellsOf, hskipped, if_pos rfl]
      simp only [Bool.true_eq_false, if_false] at hsettled
      omega
    · intro e he htells
      rcases tellsOf_iff.mp htells with hsettles | heq
      · have hdue := (h.due_of_settles he hsettles).2.2
        rw [hskips] at hdue
        cases hdue
      · exact heq
  | false =>
    rw [if_neg Bool.false_ne_true]
    have hnot : .skipped c ∉ b.events := by
      intro hin
      have hcount := List.count_pos_iff.mpr hin
      rw [hskipped, hskips] at hcount
      exact absurd hcount (by decide)
    cases htext : (d.output c).text? with
    | none =>
      refine List.filter_eq_nil_iff.mpr fun e he htells => ?_
      rcases tellsOf_iff.mp htells with hsettles | rfl
      · rw [htext, h.verdict e he c hsettles] at hverdict
        cases hverdict
      · exact hnot he
    | some text =>
      refine filter_eq_singleton ?_ ?_
      · have hfree := h.countP_holds hcases hover hc hle (by rw [Driver.Readable, htext]; simp)
        rw [hfree, hskips, if_pos rfl, Nat.zero_add] at hsettled
        rw [countP_tellsOf, hsettled, List.count_eq_zero_of_not_mem hnot]
      · intro e he htells
        rcases tellsOf_iff.mp htells with hsettles | rfl
        · rw [htext, h.verdict e he c hsettles] at hverdict
          exact Option.some.inj hverdict
        · exact absurd he hnot

/-- The run has passed if and only if each case has whose output can be read. -/
theorem passed_iff : b.passed = true ↔
    ∀ c, 1 ≤ c → c ≤ number → policy.skips c = false → d.Readable c → d.status c = 0 := by
  have hfailing : .failing ∉ ws := fun hin => by cases hover _ hin
  have hfailure : b.events.any Event.isFailure = true ↔ b.passed = false := by
    rw [h.failure, or_iff_left hfailing]
  constructor
  · intro hpassed c hc hle hskips hreadable
    by_contra hstatus
    obtain ⟨text, htext⟩ := Option.ne_none_iff_exists'.mp hreadable
    have hrecord := h.filter_tellsOf hcases hover hlast hc hle
    rw [hskips, if_neg Bool.false_ne_true, htext, Option.map_some, Driver.result,
      if_neg hstatus] at hrecord
    have hin : Event.failed c (d.status c) text ∈ b.events.filter (·.tellsOf c) := by
      rw [hrecord]
      exact List.mem_singleton_self _
    have hfalse := hfailure.mp (List.any_eq_true.mpr ⟨_, (List.mem_filter.mp hin).1, rfl⟩)
    rw [hpassed] at hfalse
    cases hfalse
  · intro hzero
    rw [← Bool.not_eq_false]
    intro hfalse
    obtain ⟨e, he, hfailed⟩ := List.any_eq_true.mp (hfailure.mpr hfalse)
    cases e with
    | failed c status output =>
      have hsettles : (Event.failed c status output).settles c = true := beq_self_eq_true c
      obtain ⟨hpos, _, hskips⟩ := h.due_of_settles he hsettles
      rcases Driver.verdict?_cases (h.verdict _ he c hsettles)
        with ⟨_, habsent⟩ | ⟨hgoes, text, htext, hresult⟩
      · cases habsent
      · -- A case above the number would have ended the run and not failed.
        have hle : c ≤ number := by
          by_contra hgt
          rw [(hcases.stops_iff hpos).mpr (Nat.lt_of_not_le hgt)] at hgoes
          cases hgoes
        have hreadable : d.Readable c := by
          rw [Driver.Readable, htext]
          exact Option.some_ne_none _
        rw [Driver.result, if_pos (hzero c hpos hle hskips hreadable)] at hresult
        cases hresult
    | _ => cases hfailed

end Over

end Sound

namespace Pool

/-- A run has given its verdict: each case of the driver has one record, which says that it was
    skipped, passed or failed, and what is returned says whether no case has failed. -/
structure Verdict (p : Plan) (d : Driver) (number : Nat) (pool : Pool) : Prop where
  recorded : ∀ c, 1 ≤ c → c ≤ number → ∃ e, pool.board.events.filter (·.tellsOf c) = [e] ∧
    if p.policy.skips c = true then e = .skipped c else ∃ text, e = d.result c text
  returned : ∃ result, p.returned pool.board.passed = .ok result ∧
    (result = true ↔ ∀ c, 1 ≤ c → c ≤ number → p.policy.skips c = false → d.status c = 0)

/-- **What every schedule gives.**  Whatever the number of workers and the order of their turns,
    once the run is over the cases that are not skipped have been handed out one by one and each to
    one worker, up to one that the driver does not have; skipped cases are recorded once, as are the
    others, unless their output cannot be read. So the verdict is given if and only if no report is
    asked for and all outputs can be read. -/
theorem play_verdict_iff (p : Plan) (d : Driver) {number jobs : Nat} {schedule : List Nat} {pool : Pool}
    (hpool : pool = (start jobs).play p.policy d.attempt schedule) (hcases : d.HasCases number)
    (hend : pool.isOver = true) :
    (((start jobs).handouts p.policy d.attempt schedule).map Prod.snd).Pairwise (· < ·) ∧
      number < pool.board.last ∧
      (∀ c, c ∈ ((start jobs).handouts p.policy d.attempt schedule).map Prod.snd ↔
        1 ≤ c ∧ c ≤ pool.board.last ∧ p.policy.skips c = false) ∧
      (∀ c, 1 ≤ c → c ≤ number → pool.board.events.filter (·.tellsOf c)
        = if p.policy.skips c = true then [.skipped c]
          else ((d.output c).text?.map (d.result c)).toList) ∧
      (pool.board.passed = true ↔
        ∀ c, 1 ≤ c → c ≤ number → p.policy.skips c = false → d.Readable c → d.status c = 0) ∧
      (Verdict p d number pool ↔
        p.report = none ∧ ∀ c, 1 ≤ c → c ≤ number → p.policy.skips c = false → d.Readable c) := by
  have hstart : Sound p.policy d (start jobs).workers (start jobs).board := sound_start p.policy d jobs
  have hsound : Sound p.policy d pool.workers pool.board := hpool ▸ sound_play hstart schedule
  obtain ⟨hsorted, _, hhanded⟩ := handouts_play p.policy d (start jobs) schedule
  rw [← hpool] at hhanded
  obtain ⟨hdone, hall⟩ := Bool.and_eq_true_iff.mp hend
  have hover : ∀ w ∈ pool.workers, w.isOver = true := List.all_eq_true.mp hall
  have hlast := hsound.number_lt hcases hdone
  have hrecord : ∀ c, 1 ≤ c → c ≤ number → pool.board.events.filter (·.tellsOf c)
      = if p.policy.skips c = true then [.skipped c]
        else ((d.output c).text?.map (d.result c)).toList := fun c hc hle => hsound.filter_tellsOf hcases hover hlast hc hle
  have hpassed := hsound.passed_iff hcases hover hlast
  refine ⟨hsorted, hlast, hhanded, hrecord, hpassed, ?_, ?_⟩
  · rintro ⟨hrecorded, result, hreturned, _⟩
    refine ⟨?_, ?_⟩
    · unfold Plan.returned at hreturned
      cases hreport : p.report with
      | none => rfl
      | some file =>
        rw [hreport] at hreturned
        cases hreturned
    · intro c hc hle hskips hnone
      obtain ⟨e, hone, _⟩ := hrecorded c hc hle
      rw [hrecord c hc hle, hskips, if_neg Bool.false_ne_true, hnone] at hone
      cases hone
  · rintro ⟨hreport, hreadable⟩
    refine ⟨?_, ?_⟩
    · intro c hc hle
      rw [hrecord c hc hle]
      cases hskips : p.policy.skips c with
      | true => exact ⟨.skipped c, rfl, rfl⟩
      | false =>
        obtain ⟨text, htext⟩ := Option.ne_none_iff_exists'.mp (hreadable c hc hle hskips)
        rw [htext]
        exact ⟨d.result c text, rfl, text, rfl⟩
    · refine ⟨pool.board.passed, ?_, hpassed.trans ?_⟩
      · rw [Plan.returned, hreport]
        rfl
      · constructor
        · exact fun hzero c hc hle hskips => hzero c hc hle hskips (hreadable c hc hle hskips)
        · exact fun hzero c hc hle hskips _ => hzero c hc hle hskips

/-- A driver with three cases, the last of which fails. -/
def failingDriver : Driver where
  status c := if c = 3 then 7 else if c < 3 then 0 else 255
  output c := .ofText (if c = 3 then "3 != 4" else "")

theorem failingDriver_hasCases : failingDriver.HasCases 3 where
  le := by decide
  above c hc := (if_neg (by omega)).trans (if_neg (by omega))
  within c hc hle :=
    (show ∀ c < 4, 1 ≤ c → Plan.endsCases (failingDriver.status c) = false by decide) c (by omega) hc

/-- A plan in which the second case is skipped. -/
def skippingPlan : Plan := { path := "a.t", policy := ⟨[(.int 2, .str "skip")]⟩ }

/-- A run of three workers on this driver.  One of them meets a case that the driver does not have
    before the others have started theirs. -/
def failingRun : Pool :=
  (start 3).play skippingPlan.policy failingDriver.attempt [0, 1, 2, 2, 2, 2, 0, 1, 1, 0, 0, 1, 1]

/-- One case fails, one is skipped and one passes; the run says so, and does not succeed. -/
theorem play_verdict_failing :
    failingRun.isOver = true ∧ Verdict skippingPlan failingDriver 3 failingRun ∧
    failingRun.board.events.filter (·.tellsOf 2) = [.skipped 2] ∧
    failingRun.board.events.filter (·.tellsOf 3) = [.failed 3 7 "3 != 4"] ∧
    skippingPlan.returned failingRun.board.passed = .ok false := by
  have hend : failingRun.isOver = true := by decide +kernel
  obtain ⟨_, _, _, hrecord, hpassed, hverdict⟩ :=
    play_verdict_iff skippingPlan failingDriver rfl failingDriver_hasCases hend
  have hreadable : ∀ c, failingDriver.Readable c := by
    intro c
    rw [Driver.Readable, failingDriver, Output.text?_ofText]
    exact Option.some_ne_none _
  have hfailed : failingRun.board.passed = false := by
    rw [← Bool.not_eq_true]
    intro htrue
    exact absurd (hpassed.mp htrue 3 (by decide) (by decide) (by decide) (hreadable 3)) (by decide)
  refine ⟨hend, hverdict.mpr ⟨rfl, fun c _ _ _ => hreadable c⟩, hrecord 2 (by decide) (by decide),
    (hrecord 3 (by decide) (by decide)).trans (by decide +kernel), ?_⟩
  rw [hfailed]
  rfl

/-- A driver with two cases, the first of which fails and writes a byte that stands for no text. -/
def garbledDriver : Driver where
  status c := if c = 1 then 7 else if c = 2 then 0 else 255
  output c := if c = 1 then { bytes := [255] } else {}

/-- A run of two workers on this driver. -/
def garbledRun (p : Plan) : Pool :=
  (start 2).play p.policy garbledDriver.attempt [0, 0, 0, 1, 1, 1, 1, 1, 1, 1]

/-- A run ends well although its first case fails, of which there is no record; and a run that is to
    write a report ends with a failure. -/
theorem play_verdict_unread : garbledDriver.HasCases 2 ∧
    (garbledRun { path := "a.t", policy := ⟨[]⟩ }).isOver = true ∧ garbledDriver.status 1 = 7 ∧
    (garbledRun { path := "a.t", policy := ⟨[]⟩ }).board.events.filter (·.tellsOf 1) = [] ∧
    Plan.returned { path := "a.t", policy := ⟨[]⟩ }
      (garbledRun { path := "a.t", policy := ⟨[]⟩ }).board.passed
      = .ok true ∧
    failingRun.isOver = true ∧
    Plan.returned { skippingPlan with report := some "a.xml" } failingRun.board.passed
      = .error .wrongType := by
  have hcases : garbledDriver.HasCases 2 := by
    refine ⟨by decide, ?_, ?_⟩
    · exact fun c hc => (if_neg (by omega)).trans (if_neg (by omega))
    · intro c hc hle
      exact (show ∀ c < 3, 1 ≤ c → Plan.endsCases (garbledDriver.status c) = false by decide) c
        (by omega) hc
  exact ⟨hcases, by decide +kernel, by decide, by decide +kernel, by decide +kernel,
    by decide +kernel, rfl⟩

end Pool

end BuildMeta.TestRun
