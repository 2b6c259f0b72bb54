import BuildMeta.Build.Session

/-!
# `Proofs.Build.Session` — what the steps of a build do to its state

A step gives a result or fails, and leaves a state in both cases (`Step.runFrom`).  If the first of
two steps succeeds, the second goes on from the state that the first has left
(`runFrom_bind_of_ok`).  Proofs about steps go through this lemma and the one for each basic step,
and never unfold the monad.
-/

namespace BuildMeta.Build.Step

variable {α β : Type} {x : Step α} {f : α → Step β} {s s' : Session} {a : α}

theorem runFrom_bind_of_ok (h : runFrom s x = (.ok a, s')) : runFrom s (x >>= f) = runFrom s' (f a) := by
  have hbind :
      runFrom s (x >>= f) = StateT.run (ExceptT.bindCont f (runFrom s x).1).run (runFrom s x).2 := rfl
  rw [hbind, h]
  rfl

@[simp] theorem runFrom_pure (s : Session) (a : α) : runFrom s (pure a) = (.ok a, s) := rfl

@[simp] theorem runFrom_get (s : Session) : runFrom s get = (.ok s, s) := rfl

@[simp] theorem runFrom_modify (s : Session) (g : Session → Session) :
    runFrom s (modify g) = (.ok (), g s) := rfl

@[simp] theorem runFrom_record (s : Session) (event : Event) :
    runFrom s (record event) = (.ok (), { s with newest := Event.push event s.newest }) := rfl

@[simp] theorem runFrom_vars (s : Session) : runFrom s vars = (.ok s.vars, s) := rfl

@[simp] theorem runFrom_change (s : Session) (g : Variables → Variables) :
    runFrom s (change g) = (.ok (), { s with vars := g s.vars }) := rfl

/-- A computation without effects leaves the state as it is. -/
@[simp] theorem runFrom_liftM (s : Session) (r : Except Failure α) :
    runFrom s (liftM r : Step α) = (r, s) := by
  cases r <;> rfl

end BuildMeta.Build.Step
