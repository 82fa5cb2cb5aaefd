import MailServer.Service.Script

/-!
# Running scripts, whoever answers the calls

A run of a script comes to a result, leaves a state and the notes made on the way. The rules here
put runs together along `do`, for any way of answering calls; `MailServer.Proofs.Script` has the
equations for the store in memory.

* `Script.Runs` — a script run from a state: its result, the state after it and its notes.
* `Attempt.Runs` — the same of an attempt, whose result may be an error.
* `Script.Runs.bind`, `Attempt.Runs.bind`, `Attempt.Runs.bind_error` — runs one after the other.
* `Script.Runs.of_note`, `Script.Runs.of_bind`, `Attempt.Runs.of_bind` — what a run is made of.
* `Script.runs_total` — every script has a run, and `Script.Runs.unique` only one.
-/

namespace MailServer.Service

variable {α β ε σ : Type} {answer : (c : Call) → σ → c.Reply × σ}

/-! ## Scripts -/

namespace Script

/-- The script, run from `s`, ends in `a` and leaves `s'` and `notes`. -/
def Runs (answer : (c : Call) → σ → c.Reply × σ) (script : Script α) (s : σ) (a : α) (s' : σ)
    (notes : List Note) : Prop :=
  script.run answer s = (a, s', notes)

theorem runs_total (answer : (c : Call) → σ → c.Reply × σ) (script : Script α) (s : σ) :
    ∃ a s' notes, Runs answer script s a s' notes := ⟨_, _, _, rfl⟩

theorem Runs.unique {script : Script α} {s s₁ s₂ : σ} {a₁ a₂ : α} {n₁ n₂ : List Note}
    (h₁ : Runs answer script s a₁ s₁ n₁) (h₂ : Runs answer script s a₂ s₂ n₂) :
    a₁ = a₂ ∧ s₁ = s₂ ∧ n₁ = n₂ := by
  have h : (a₁, s₁, n₁) = (a₂, s₂, n₂) := h₁.symm.trans h₂
  cases h
  exact ⟨rfl, rfl, rfl⟩

theorem runs_pure (a : α) (s : σ) : Runs answer (pure a) s a s [] := rfl

theorem runs_ask (answer : (c : Call) → σ → c.Reply × σ) (c : Call) (s : σ) :
    Runs answer (ask c) s (answer c s).1 (answer c s).2 [] := rfl

theorem runs_log (event : Log.Event) (s : σ) : Runs answer (log event) s () s [.logged event] := rfl

/-- A script that begins with a note is run from behind it. -/
theorem Runs.of_note {n : Note} {next : Script α} {s after : σ} {a : α} {notes : List Note}
    (h : Runs answer (.note n next) s a after notes) :
    ∃ rest, notes = n :: rest ∧ Runs answer next s a after rest := by
  obtain ⟨a', after', rest, hnext⟩ := runs_total answer next s
  have hsame : (a', after', n :: rest) = (a, after, notes) := by
    rw [← h, run, hnext]
  cases hsame
  exact ⟨rest, rfl, hnext⟩

/-- The second script runs from where the first one ends, and its notes come behind. Induction on
the first. -/
theorem Runs.bind {x : Script α} {f : α → Script β} {s s₁ s₂ : σ} {a : α} {b : β}
    {n₁ n₂ : List Note} (hx : Runs answer x s a s₁ n₁) (hf : Runs answer (f a) s₁ b s₂ n₂) :
    Runs answer (x >>= f) s b s₂ (n₁ ++ n₂) := by
  show (x.bind f).run answer s = _
  induction x generalizing s n₁ with
  | done a' =>
    cases hx
    exact hf
  | call c next ih => exact ih (answer c s).1 hx
  | note n next ih =>
    obtain ⟨notes, rfl, hnext⟩ := hx.of_note
    rw [bind_note, run, ih hnext]
    rfl

/-- A run of two scripts is a run of each. -/
theorem Runs.of_bind {x : Script α} {f : α → Script β} {s after : σ} {b : β} {notes : List Note}
    (h : Runs answer (x >>= f) s b after notes) :
    ∃ a s₁ n₁ n₂, Runs answer x s a s₁ n₁ ∧ Runs answer (f a) s₁ b after n₂ ∧ notes = n₁ ++ n₂ := by
  obtain ⟨a, s₁, n₁, hx⟩ := runs_total answer x s
  obtain ⟨b', s₂, n₂, hf⟩ := runs_total answer (f a) s₁
  obtain ⟨rfl, rfl, rfl⟩ := (hx.bind hf).unique h
  exact ⟨a, s₁, n₁, n₂, hx, hf, rfl⟩

theorem Runs.map {x : Script α} {s s₁ : σ} {a : α} {notes : List Note} (hx : Runs answer x s a s₁ notes)
    (f : α → β) : Runs answer (f <$> x) s (f a) s₁ notes := by
  have h := hx.bind (f := fun a => pure (f a)) (runs_pure (f a) s₁)
  rwa [List.append_nil, bind_pure_comp] at h

end Script

/-! ## Attempts -/

namespace Attempt

/-- The attempt, run from `s`, comes to `result` and leaves `s'` and `notes`. -/
def Runs (answer : (c : Call) → σ → c.Reply × σ) (x : Attempt ε α) (s : σ) (result : Except ε α)
    (s' : σ) (notes : List Note) : Prop :=
  Script.Runs answer x.run s result s' notes

theorem runs_total (answer : (c : Call) → σ → c.Reply × σ) (x : Attempt ε α) (s : σ) :
    ∃ result s' notes, Runs answer x s result s' notes := Script.runs_total answer x.run s

theorem runs_pure (a : α) (s : σ) : Runs answer (pure a : Attempt ε α) s (.ok a) s [] := rfl

theorem runs_liftExcept (x : Except ε α) (s : σ) :
    Runs answer (liftM x : Attempt ε α) s x s [] := rfl

theorem Runs.bind {x : Attempt ε α} {f : α → Attempt ε β} {s s₁ s₂ : σ} {a : α}
    {result : Except ε β} {n₁ n₂ : List Note} (hx : Runs answer x s (.ok a) s₁ n₁)
    (hf : Runs answer (f a) s₁ result s₂ n₂) : Runs answer (x >>= f) s result s₂ (n₁ ++ n₂) :=
  Script.Runs.bind hx hf

/-- What comes behind an attempt that failed is left out. -/
theorem Runs.bind_error {x : Attempt ε α} {f : α → Attempt ε β} {s s₁ : σ} {e : ε}
    {notes : List Note} (hx : Runs answer x s (.error e) s₁ notes) :
    Runs answer (x >>= f) s (.error e) s₁ notes := by
  have h := Script.Runs.bind (f := ExceptT.bindCont f) hx (Script.runs_pure (Except.error e) s₁)
  rwa [List.append_nil] at h

/-- A run of two attempts is a run of the first that failed, or a run of each. -/
theorem Runs.of_bind {x : Attempt ε α} {f : α → Attempt ε β} {s after : σ} {result : Except ε β}
    {notes : List Note} (h : Runs answer (x >>= f) s result after notes) :
    (∃ e, result = .error e ∧ Runs answer x s (.error e) after notes) ∨
    ∃ a s₁ n₁ n₂, Runs answer x s (.ok a) s₁ n₁ ∧ Runs answer (f a) s₁ result after n₂ := by
  obtain ⟨attempted, s₁, n₁, hx⟩ := runs_total answer x s
  cases attempted with
  | error e =>
    obtain ⟨rfl, rfl, rfl⟩ := Script.Runs.unique (hx.bind_error (f := f)) h
    exact Or.inl ⟨e, rfl, hx⟩
  | ok a =>
    obtain ⟨result', s₂, n₂, hf⟩ := runs_total answer (f a) s₁
    obtain ⟨rfl, rfl, rfl⟩ := Script.Runs.unique (hx.bind hf) h
    exact Or.inr ⟨a, s₁, n₁, n₂, hx, hf⟩

/-- Two attempts that come to a value have both succeeded. -/
theorem Runs.of_bind_ok {x : Attempt ε α} {f : α → Attempt ε β} {s after : σ} {b : β}
    {notes : List Note} (h : Runs answer (x >>= f) s (.ok b) after notes) :
    ∃ a s₁ n₁ n₂, Runs answer x s (.ok a) s₁ n₁ ∧ Runs answer (f a) s₁ (.ok b) after n₂ := by
  rcases h.of_bind with ⟨e, hresult, -⟩ | hboth
  · cases hresult
  · exact hboth

/-- Of two attempts that come to an error, the first has failed, or it has succeeded and the second
has failed. -/
theorem Runs.of_bind_error {x : Attempt ε α} {f : α → Attempt ε β} {s after : σ} {e : ε}
    {notes : List Note} (h : Runs answer (x >>= f) s (.error e) after notes) :
    Runs answer x s (.error e) after notes ∨
    ∃ a s₁ n₁ n₂, Runs answer x s (.ok a) s₁ n₁ ∧ Runs answer (f a) s₁ (.error e) after n₂ := by
  rcases h.of_bind with ⟨e', hresult, hfailed⟩ | hboth
  · cases hresult
    exact Or.inl hfailed
  · exact Or.inr hboth

end Attempt

end MailServer.Service
