import MailServer.Imap.Command
import MailServer.Proofs.Script
import MailServer.Proofs.Store

/-!
# Commands on the store

What the two commands do where the store in memory answers. A `SELECT` reads the store; a `CREATE`
is a creation in the store, followed by a look at the selected mailbox.

* `attempt_select`, `attempt_create` — the two commands while nothing goes wrong.
* `outcome_process` — the answer to a command, good or bad.
* `selectLines_eq` — the lines that answer a `SELECT`.
-/

namespace MailServer.Imap

open Service (Backend)
open Service.Backend

/-- Looking for new messages changes nothing. -/
theorem attempt_poll (s : Session) (b : Backend) : ∃ result, attempt s.poll b = (result, b) := by
  unfold Session.poll
  cases s.selected with
  | none => exact ⟨_, rfl⟩
  | some selection =>
    dsimp only
    rw [attempt_bind, attempt_mk, outcome_ask]
    dsimp only [Backend.answer]
    cases b.store.status selection.path with
    | error e => exact ⟨_, rfl⟩
    | ok status =>
      dsimp only
      split
      · exact ⟨_, rfl⟩
      · exact ⟨_, rfl⟩

namespace Command

variable (c : Command) (s : Session) (b : Backend)

/-- The answer to a command, and the state that it leaves. -/
theorem outcome_process :
    outcome (c.process s) b =
      (match (Backend.attempt (c.attempt s) b).1 with
        | .ok answer => answer
        | .error cause =>
          (c.sessionAfterFailure s,
            [.tagged ((c.verb.rules.resolve cause c.context).action.line c.tag c.verb.name)]),
        (Backend.attempt (c.attempt s) b).2) := by
  rw [process, outcome_bind, ← Backend.attempt]
  generalize Backend.attempt (c.attempt s) b = attempted
  obtain ⟨result, after⟩ := attempted
  cases result <;> rfl

/-- A `CREATE` leaves what creating the resolved path leaves. -/
theorem attempt_create :
    (Backend.attempt (c.create s) b).2 =
      match Mailbox.resolve s.caller c.mailbox with
      | .error _ => b
      | .ok path => { b with store := (b.store.create path).2 } := by
  rw [create, attempt_bind, attempt_liftExcept]
  cases Mailbox.resolve s.caller c.mailbox with
  | error e => rfl
  | ok path =>
    dsimp only
    rw [attempt_bind, attempt_mk, outcome_ask]
    dsimp only [Backend.answer]
    cases (b.store.create path).1 with
    | error e => rfl
    | ok id =>
      dsimp only
      -- the poll behind the creation may fail; it changes nothing either way
      obtain ⟨result, hpoll⟩ := attempt_poll s { b with store := (b.store.create path).2 }
      rw [attempt_bind, hpoll]
      cases result <;> rfl

/-- A `SELECT` describes the mailbox of the resolved path, and changes nothing. -/
theorem attempt_select :
    Backend.attempt (c.select s) b =
      (match Mailbox.resolve s.caller c.mailbox with
        | .error e => .error e
        | .ok path =>
          match b.store.status path with
          | .error e => .error e
          | .ok status =>
            .ok (s.select path status.messages, openingLines status ++ [c.completed (some .readWrite)]),
        b) := by
  rw [select, attempt_bind, attempt_liftExcept]
  cases Mailbox.resolve s.caller c.mailbox with
  | error e => rfl
  | ok path =>
    dsimp only
    rw [attempt_bind, attempt_mk, outcome_ask]
    dsimp only [Backend.answer]
    cases b.store.status path <;> rfl

/-- The state after a command is that after a creation, or nothing has changed. -/
theorem process_state :
    (outcome (c.process s) b).2 = b ∨
    ∃ path, Mailbox.resolve s.caller c.mailbox = .ok path ∧
      (outcome (c.process s) b).2 = { b with store := (b.store.create path).2 } := by
  rw [outcome_process]
  dsimp only
  unfold attempt
  cases c.verb with
  | create =>
    dsimp only
    rw [attempt_create]
    cases Mailbox.resolve s.caller c.mailbox with
    | error e => exact Or.inl rfl
    | ok path => exact Or.inr ⟨path, rfl, rfl⟩
  | select =>
    dsimp only
    rw [attempt_select]
    exact Or.inl rfl

end Command

/-! ## Answers to a selection -/

/-- A command that failed is not answered with OK. -/
theorem status_of_rules (v : Verb) (cause : Mailbox.Error) (context : Log.Context) :
    (v.rules.resolve cause context).action.status ≠ .ok := by
  cases v <;> cases cause <;> exact fun h => nomatch h

/-- The answer of a `SELECT` that succeeds: the mailbox described, and a tagged OK. -/
def opened (tag : String) (status : Mailbox.Status) : List Response :=
  openingLines status ++ [.tagged (.completed tag "SELECT" (some .readWrite))]

/-- The lines that answer a `SELECT` in a session. -/
def selectLines (tag mailbox : String) (s : Session) (b : Backend) : List Response :=
  (outcome (Command.process ⟨tag, .select, mailbox⟩ s) b).1.2

theorem selectLines_eq (tag mailbox : String) (s : Session) (b : Backend) :
    selectLines tag mailbox s b =
      match (Mailbox.resolve s.caller mailbox).bind b.store.status with
      | .error cause =>
        [.tagged ((selectRules.resolve cause (Command.context ⟨tag, .select, mailbox⟩)).action.line tag
          "SELECT")]
      | .ok status => opened tag status := by
  rw [selectLines, Command.outcome_process, Command.attempt]
  dsimp only
  rw [Command.attempt_select]
  dsimp only
  cases Mailbox.resolve s.caller mailbox with
  | error e => rfl
  | ok path =>
    dsimp only [Except.bind]
    cases b.store.status path <;> rfl

/-- A `SELECT` is answered with OK where the name resolves to a mailbox, and describes it then. -/
theorem selectLines_of_ok {tag mailbox : String} {s : Session} {b : Backend} {line : Tagged}
    (hline : .tagged line ∈ selectLines tag mailbox s b) (hok : line.status = .ok) :
    ∃ path status, Mailbox.resolve s.caller mailbox = .ok path ∧ b.store.status path = .ok status ∧
      selectLines tag mailbox s b = opened tag status := by
  rw [selectLines_eq] at hline ⊢
  cases hresolve : Mailbox.resolve s.caller mailbox with
  | error e =>
    rw [hresolve] at hline
    cases List.mem_singleton.mp hline
    exact absurd hok (status_of_rules .select e _)
  | ok path =>
    rw [hresolve] at hline
    dsimp only [Except.bind] at hline ⊢
    cases hstatus : b.store.status path with
    | error e =>
      rw [hstatus] at hline
      cases List.mem_singleton.mp hline
      exact absurd hok (status_of_rules .select e _)
    | ok status => exact ⟨path, status, rfl, hstatus, rfl⟩

end MailServer.Imap
