import MailServer.Service.Script

/-!
# Running scripts on the store and the registry

Every command of the server is a script. Where its calls are answered by the store in memory, a
script is a function of the state: its outcome is a result with the state after it. The equations
here take that function apart along `do`.

* `Backend.outcome` — the outcome of a script, its notes left out.
* `Backend.attempt` — the outcome of a script that may end in an error.
* `Backend.outcome_keeps` — what every call keeps, every script keeps.
-/

namespace MailServer.Service.Backend

variable {α β ε : Type}

/-! ## Scripts -/

/-- The result of a script and the state after it. -/
def outcome (script : Script α) (b : Backend) : α × Backend :=
  ((b.run script).1, (b.run script).2.1)

@[simp] theorem outcome_pure (a : α) (b : Backend) : outcome (pure a) b = (a, b) := rfl

@[simp] theorem outcome_ask (c : Call) (b : Backend) : outcome (ask c) b = b.answer c := rfl

@[simp] theorem outcome_log (event : Log.Event) (b : Backend) : outcome (log event) b = ((), b) :=
  rfl

/-- The second script runs from where the first one ends. Induction on the first. -/
@[simp] theorem outcome_bind (s : Script α) (f : α → Script β) (b : Backend) :
    outcome (s >>= f) b = outcome (f (outcome s b).1) (outcome s b).2 := by
  show outcome (s.bind f) b = _
  induction s generalizing b with
  | done a => rfl
  | call c next ih => exact ih (b.answer c).1 (b.answer c).2
  | note n next ih => exact ih b

@[simp] theorem outcome_map (f : α → β) (s : Script α) (b : Backend) :
    outcome (f <$> s) b = (f (outcome s b).1, (outcome s b).2) := by
  rw [← bind_pure_comp, outcome_bind]
  rfl

/-- A property of the state that every call keeps is kept by every script. -/
theorem outcome_keeps {P : Backend → Prop} (h : ∀ c b, P b → P (b.answer c).2) (s : Script α)
    {b : Backend} (hb : P b) : P (outcome s b).2 := by
  induction s generalizing b with
  | done a => exact hb
  | call c next ih => exact ih _ (h c b hb)
  | note n next ih => exact ih hb

/-! ## Attempts -/

/-- The result of an attempt, good or bad, and the state after it. -/
def attempt (x : Attempt ε α) (b : Backend) : Except ε α × Backend := outcome x.run b

@[simp] theorem attempt_pure (a : α) (b : Backend) :
    attempt (pure a : Attempt ε α) b = (.ok a, b) := rfl

@[simp] theorem attempt_throw (e : ε) (b : Backend) :
    attempt (throw e : Attempt ε α) b = (.error e, b) := rfl

@[simp] theorem attempt_liftExcept (x : Except ε α) (b : Backend) :
    attempt (liftM x : Attempt ε α) b = (x, b) := rfl

@[simp] theorem attempt_mk (s : Script (Except ε α)) (b : Backend) :
    attempt (ExceptT.mk s) b = outcome s b := rfl

/-- A script as an attempt, which does not fail. -/
@[simp] theorem attempt_lift (s : Script α) (b : Backend) :
    attempt (liftM s : Attempt ε α) b = (.ok (outcome s b).1, (outcome s b).2) := by
  show outcome (s >>= fun a => pure (Except.ok a)) b = _
  rw [outcome_bind]
  rfl

@[simp] theorem attempt_ask (c : Call) (b : Backend) :
    attempt (liftM (ask c) : Attempt ε c.Reply) b = (.ok (b.answer c).1, (b.answer c).2) := rfl

/-- What comes behind an attempt is done where the attempt succeeded, and left out where it failed. -/
theorem attempt_bind (x : Attempt ε α) (f : α → Attempt ε β) (b : Backend) :
    attempt (x >>= f) b =
      match attempt x b with
      | (.ok a, after) => attempt (f a) after
      | (.error e, after) => (.error e, after) := by
  show outcome (x.run >>= _) b = _
  rw [outcome_bind, ← attempt]
  generalize attempt x b = attempted
  obtain ⟨result, after⟩ := attempted
  cases result with
  | ok a => rfl
  | error e => rfl

theorem attempt_bind_ok {x : Attempt ε α} {f : α → Attempt ε β} {b after : Backend} {a : α}
    (h : attempt x b = (.ok a, after)) : attempt (x >>= f) b = attempt (f a) after := by
  rw [attempt_bind, h]

theorem attempt_bind_error {x : Attempt ε α} {f : α → Attempt ε β} {b after : Backend} {e : ε}
    (h : attempt x b = (.error e, after)) : attempt (x >>= f) b = (.error e, after) := by
  rw [attempt_bind, h]

theorem forM_cons (f : α → Attempt ε PUnit) (a : α) (as : List α) :
    (a :: as).forM f = f a >>= fun _ => as.forM f := rfl

end MailServer.Service.Backend
