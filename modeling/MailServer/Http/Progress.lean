import MailServer.Log

/-!
# The progress of a request

A request goes through a fixed sequence of states. It may fail in any of them but the last, and a
failed request goes on to its response.

* `MailServer.Http.State` are the states and `MailServer.Http.State.canAdvance` the steps.
* `MailServer.Http.Trace` is the history of a request.
* `MailServer.Http.Trace.advance` and `MailServer.Http.Trace.fail` extend it. A step that is not
  one leaves the history as it is and is reported.
-/

namespace MailServer.Http

/-- The kinds of failure a client is told about. -/
inductive Failure where
  | badRequest
  | unauthorized
  | internal
deriving DecidableEq, Repr

namespace Failure

/-- The name of a kind. -/
def name : Failure → String
  | badRequest => "BadRequest"
  | unauthorized => "Unauthorized"
  | internal => "Internal"

/-- The status of the response to a failure. -/
def status : Failure → Nat
  | badRequest => 400
  | unauthorized => 401
  | internal => 500

end Failure

/-- The states of a request. -/
inductive State where
  | received
  | authenticating
  | decoding
  | provisioning
  | executing
  | responding
  | completed
  | failed (kind : Failure)
deriving DecidableEq, Repr

namespace State

/-- The name of a state. -/
def name : State → String
  | received => "Received"
  | authenticating => "Authenticating"
  | decoding => "Decoding"
  | provisioning => "Provisioning"
  | executing => "Executing"
  | responding => "Responding"
  | completed => "Completed"
  | failed kind => "Failed(" ++ kind.name ++ ")"

/-- A request in the first state may go on to the second. -/
def canAdvance : State → State → Bool
  | completed, failed _ => false
  | failed _, failed _ => false
  | _, failed _ => true
  | received, authenticating => true
  | authenticating, decoding => true
  | decoding, provisioning => true
  | provisioning, executing => true
  | executing, responding => true
  | failed _, responding => true
  | responding, completed => true
  | _, _ => false

end State

/-- The states that a request went through after `received`, the latest first. -/
structure Trace where
  later : List State
deriving DecidableEq, Repr

namespace Trace

/-- The trace of a request that has been received. -/
def start : Trace := ⟨[]⟩

/-- The state that a request is in. -/
def current (t : Trace) : State := t.later.headD .received

/-- The states of a request in order. -/
def history (t : Trace) : List State := .received :: t.later.reverse

/-- The event that reports a step which is not one. -/
def refusal (current next : State) : Log.Event where
  source := .request
  level := .warn
  message := "ignored illegal state transition"
  fields := [("current", current.name), ("next", next.name)]

/-- Goes on to the next state, or reports that this is no step. -/
def advance (t : Trace) (next : State) : Trace × Option Log.Event :=
  if t.current.canAdvance next then (⟨next :: t.later⟩, none) else (t, some (refusal t.current next))

/-- Fails and goes on to the response, or reports that the request cannot fail any more. -/
def fail (t : Trace) (kind : Failure) : Trace × Option Log.Event :=
  match t.advance (.failed kind) with
  | (failed, none) => failed.advance .responding
  | refused => refused

/-- The kind of the first failure. -/
def failure? (t : Trace) : Option Failure :=
  t.history.findSome? fun
    | .failed kind => some kind
    | _ => none

end Trace

end MailServer.Http
