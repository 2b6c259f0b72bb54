import BuildMeta.Failure

/-!
# Notices and logged results

Operations that talk to the user return what they say as a list of notices beside their result.
`Logged` is the monad of such results: what was said before a failure is kept.  The outcome of a
sequence of steps is the sequence of the outcomes (`Logged.outcome_bind`), so a statement about
results needs no word about notices.
-/

namespace BuildMeta

/-- One thing said to the user. -/
inductive Notice where
  /-- A remark. -/
  | info (text : String)
  /-- A warning. -/
  | warn (text : String)
  /-- A label with its value. -/
  | entry (label value : String)
  /-- The announcement of a step whose result follows. -/
  | opening (text : String)
  /-- The result of the step announced last. -/
  | closing (text : String)
  /-- Text for the output stream as it is. -/
  | out (text : String)
  /-- Text for the error stream as it is. -/
  | err (text : String)
  /-- A failure that nothing was prepared for. -/
  | fault (cause : Failure)
deriving Repr, BEq, DecidableEq, Inhabited

/-- The two text streams of a terminal. -/
inductive Channel where
  | out
  | err
deriving Repr, BEq, DecidableEq, Inhabited

namespace Notice

/-- The stream on which a notice appears. -/
def channel : Notice → Channel
  | warn _ | err _ | fault _ => .err
  | _ => .out

/-- The text of a notice, with its line end. -/
def text : Notice → String
  | info s => s ++ "\n"
  | warn s => s ++ "\n"
  | entry label value => label ++ ": " ++ value ++ "\n"
  | opening s => s ++ ": \n"
  | closing s => s ++ "\n"
  | out s => s
  | err s => s
  | fault e => "unexpected failure: " ++ e.message ++ "\n"

/-- What the notices write to a stream. -/
def written (channel : Channel) (notices : List Notice) : String :=
  String.join ((notices.filter (·.channel == channel)).map text)

end Notice

/-- A result or failure, with what was said on the way. -/
structure Logged (α : Type) where
  notices : List Notice
  outcome : Except Failure α
deriving Inhabited

namespace Logged

variable {α β : Type}

/-- Runs the second step on the result of the first, if there is one. -/
def bind (x : Logged α) (f : α → Logged β) : Logged β :=
  match x.outcome with
  | .ok a => ⟨x.notices ++ (f a).notices, (f a).outcome⟩
  | .error e => ⟨x.notices, .error e⟩

instance : Monad Logged where
  pure a := ⟨[], .ok a⟩
  bind := bind

/-- Fails without a word. -/
def fail (e : Failure) : Logged α := ⟨[], .error e⟩

/-- Says one thing. -/
def tell (n : Notice) : Logged Unit := ⟨[n], .ok ()⟩

/-- Says several things. -/
def tellAll (ns : List Notice) : Logged Unit := ⟨ns, .ok ()⟩

/-- Says why on the error stream, and ends the program with status one. -/
def die (text : String) : Logged α := ⟨[.warn text], .error (.stopped 1)⟩

/-- Runs a step and hands on whether it failed. -/
def attempt (x : Logged α) : Logged (Except Failure α) := ⟨x.notices, .ok x.outcome⟩

/-- A silent result. -/
def ofExcept (x : Except Failure α) : Logged α := ⟨[], x⟩

instance : MonadLift (Except Failure) Logged := ⟨ofExcept⟩

/-- The outcome of two steps is the sequence of their outcomes. -/
theorem outcome_bind (x : Logged α) (f : α → Logged β) :
    (x >>= f).outcome = x.outcome >>= fun a => (f a).outcome := by
  show (bind x f).outcome = _
  unfold bind
  cases x.outcome <;> rfl

/-- Two steps succeed if and only if the first does and the second does on its result. -/
theorem outcome_bind_eq_ok_iff {x : Logged α} {f : α → Logged β} {b : β} :
    (x >>= f).outcome = .ok b ↔ ∃ a, x.outcome = .ok a ∧ (f a).outcome = .ok b := by
  rw [outcome_bind, Failure.bind_eq_ok_iff]

@[simp] theorem outcome_pure (a : α) : (pure a : Logged α).outcome = .ok a := rfl

@[simp] theorem outcome_tell (n : Notice) : (tell n).outcome = .ok () := rfl

@[simp] theorem outcome_fail (e : Failure) : (fail e : Logged α).outcome = .error e := rfl

@[simp] theorem outcome_ofExcept (x : Except Failure α) : (ofExcept x).outcome = x := rfl

theorem ext {x y : Logged α} (hnotices : x.notices = y.notices) (houtcome : x.outcome = y.outcome) :
    x = y := by
  cases x
  cases y
  cases hnotices
  cases houtcome
  rfl

theorem notices_bind_of_ok {x : Logged α} {f : α → Logged β} {a : α} (h : x.outcome = .ok a) :
    (x >>= f).notices = x.notices ++ (f a).notices := by
  show (bind x f).notices = _
  rw [bind, h]

theorem bind_of_error {x : Logged α} {f : α → Logged β} {e : Failure} (h : x.outcome = .error e) :
    x >>= f = ⟨x.notices, .error e⟩ := by
  show bind x f = _
  rw [bind, h]

theorem bind_pure_self (x : Logged α) : x >>= (fun a => pure a) = x := by
  cases h : x.outcome with
  | error e =>
    rw [bind_of_error h]
    exact ext rfl h.symm
  | ok a =>
    refine ext ?_ ?_
    · rw [notices_bind_of_ok h]
      exact List.append_nil _
    · rw [outcome_bind, h]
      rfl

theorem bind_bind {γ : Type} (x : Logged α) (f : α → Logged β) (k : β → Logged γ) :
    x >>= f >>= k = x >>= fun a => f a >>= k := by
  cases h : x.outcome with
  | error e =>
    have hxf : (x >>= f).outcome = .error e := by rw [outcome_bind, h, Failure.error_bind]
    rw [bind_of_error hxf, bind_of_error h, bind_of_error h]
  | ok a =>
    have hxf : (x >>= f).outcome = (f a).outcome := by rw [outcome_bind, h, Failure.ok_bind]
    refine ext ?_ ?_
    · rw [notices_bind_of_ok (f := fun a => f a >>= k) h]
      cases hf : (f a).outcome with
      | error e =>
        rw [bind_of_error (hxf.trans hf), bind_of_error hf, notices_bind_of_ok h]
      | ok b =>
        rw [notices_bind_of_ok (hxf.trans hf), notices_bind_of_ok hf, notices_bind_of_ok h,
          List.append_assoc]
    · simp only [outcome_bind, h, Failure.ok_bind]

instance : LawfulMonad Logged :=
  LawfulMonad.mk' Logged (fun x => bind_pure_self x) (fun _ _ => rfl) (fun x f k => bind_bind x f k)

/-- The outcome of a step on all members of a list. -/
theorem outcome_mapM (f : α → Logged β) (xs : List α) :
    (xs.mapM f).outcome = xs.mapM fun x => (f x).outcome := by
  induction xs with
  | nil => rfl
  | cons x rest ih =>
    rw [List.mapM_cons, List.mapM_cons, outcome_bind]
    refine congrArg (_ >>= ·) (funext fun y => ?_)
    rw [outcome_bind, ih]
    rfl

end Logged

end BuildMeta
