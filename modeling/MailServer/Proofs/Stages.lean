import MailServer.Http.Stages
import MailServer.Proofs.Script

/-!
# The stages of a request on the store

Each stage is a script; where the store in memory answers, a request goes through them by the
equations below. The history of the request is carried along and decides nothing.

* `outcome_advance`, `outcome_provision`, `outcome_execute` — the stages, each in terms of the next.
* `outcome_handler` — the response, from what the stages come to.
-/

namespace MailServer.Http

open Service (Backend)
open Service.Backend

variable {β : Type}

theorem outcome_step (t : Trace) (next : State) (b : Backend) :
    outcome (t.step next) b = ((t.advance next).1, b) := by
  unfold Trace.step
  cases t.advance next with
  | mk after event => cases event <;> rfl

theorem outcome_stepFail (t : Trace) (kind : Failure) (b : Backend) :
    outcome (t.stepFail kind) b = ((t.fail kind).1, b) := by
  unfold Trace.stepFail
  cases t.fail kind with
  | mk after event => cases event <;> rfl

/-- A caller speaks with the delimiter of the tokens. -/
theorem Tokens.delimiter_of_authenticate {tokens : Tokens} {r : Request} {caller : Caller}
    (h : tokens.authenticate r = .ok caller) : caller.delimiter = tokens.delimiter := by
  unfold authenticate at h
  split at h
  · cases h
  · split at h
    · cases h
    · cases h
      rfl

namespace Stages

variable (stages : Stages β) (input : β) (caller : Caller) (r : Request) (t : Trace) (b : Backend)

theorem outcome_execute :
    outcome (stages.execute input caller t) b =
      (((attempt (stages.handle input caller) b).1, (t.advance .executing).1),
        (attempt (stages.handle input caller) b).2) := by
  rw [execute, outcome_bind, outcome_step, outcome_bind, ← attempt]
  generalize attempt (stages.handle input caller) b = handled
  obtain ⟨result, after⟩ := handled
  cases result <;> rfl

theorem outcome_provision :
    outcome (stages.provision input caller t) b =
      let t := (t.advance .provisioning).1
      match attempt (stages.provisionUser caller) b with
      | (.error cause, b) => ((.error (.provisioning cause), t), b)
      | (.ok (), b) =>
        match attempt (stages.provisionMailboxes caller) b with
        | (.error cause, b) => ((.error (.provisioning cause), t), b)
        | (.ok (), b) => outcome (stages.execute input caller t) b := by
  rw [provision, outcome_bind, outcome_step, outcome_bind, ← attempt]
  dsimp only
  generalize attempt (stages.provisionUser caller) b = entered
  obtain ⟨result, between⟩ := entered
  cases result with
  | error cause => rfl
  | ok u =>
    dsimp only
    rw [outcome_bind, ← attempt]
    generalize attempt (stages.provisionMailboxes caller) between = given
    obtain ⟨result, after⟩ := given
    cases result <;> rfl

theorem outcome_advance :
    outcome (stages.advance r t) b =
      let t := (t.advance .authenticating).1
      match attempt (stages.authenticate r) b with
      | (.error cause, b) => ((.error (.unauthorized cause), t), b)
      | (.ok caller, b) =>
        let t := (t.advance .decoding).1
        match stages.decode r.body with
        | .error cause => ((.error cause, t), b)
        | .ok input => outcome (stages.provision input caller t) b := by
  rw [advance, outcome_bind, outcome_step, outcome_bind, ← attempt]
  dsimp only
  generalize attempt (stages.authenticate r) b = authenticated
  obtain ⟨result, after⟩ := authenticated
  cases result with
  | error cause => rfl
  | ok caller =>
    dsimp only
    rw [outcome_bind, outcome_step]
    cases stages.decode r.body <;> rfl

/-- The response to a request, from what its stages come to. -/
def answer : Except Error Response → Response
  | .ok response => response
  | .error cause => failureResponse (transportRules.resolve cause (.ofList [("path", r.path)])).action

theorem outcome_handler :
    outcome (stages.handler r) b =
      (answer r (outcome (stages.advance r .start) b).1.1, (outcome (stages.advance r .start) b).2) := by
  rw [handler, outcome_map, process, outcome_bind]
  generalize outcome (stages.advance r .start) b = advanced
  obtain ⟨⟨result, t⟩, after⟩ := advanced
  cases result with
  | ok response =>
    dsimp only
    rw [outcome_bind, outcome_step, outcome_bind, outcome_step]
    rfl
  | error cause =>
    dsimp only
    rw [outcome_bind, outcome_log, outcome_bind, outcome_stepFail, outcome_bind, outcome_step]
    rfl

end Stages

end MailServer.Http
