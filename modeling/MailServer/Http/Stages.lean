import MailServer.Http.Route
import MailServer.Service.Script

/-!
# The stages of an authenticated request

A request of a user is authenticated, its body is decoded, the user is given what every user has,
and only then the request is carried out, with its duration taken. The first stage that fails ends
the request.

* `MailServer.Http.Stages` are the stages, each of them free to fail.
* `MailServer.Http.Stages.process` takes a request through them and gives the response with the
  history of the request.
-/

namespace MailServer.Http

open Service (Attempt Script)

/-- The stages of a request whose body decodes to a `β`. -/
structure Stages (β : Type) where
  authenticate : Request → Attempt CredentialError Caller
  decode : List UInt8 → Except Error β
  provisionUser : Caller → Attempt Account.Error Unit
  provisionMailboxes : Caller → Attempt Account.Error Unit
  handle : β → Caller → Attempt Error Response
  /-- The name under which the duration of `handle` is recorded. -/
  timer : String

/-- Extends a history; a step that is not one is logged. -/
def Trace.step (t : Trace) (next : State) : Script Trace :=
  match t.advance next with
  | (t, none) => pure t
  | (t, some event) => do
    Service.log event
    pure t

/-- Ends a history in failure; where that is not possible, this is logged. -/
def Trace.stepFail (t : Trace) (kind : Failure) : Script Trace :=
  match t.fail kind with
  | (t, none) => pure t
  | (t, some event) => do
    Service.log event
    pure t

namespace Stages

variable {β : Type}

/-- Carries out a request whose user has been given everything. The duration is recorded whether
or not this fails. -/
def execute (stages : Stages β) (input : β) (caller : Caller) (t : Trace) :
    Script (Except Error Response × Trace) := do
  let t ← t.step .executing
  let timer := Service.Timer.start stages.timer
  let result ← (stages.handle input caller).run
  match result with
  | .ok _ => timer.stop
  | .error _ => timer.release
  pure (result, t)

/-- Gives the user everything and goes on when that is done. The user and the mailboxes may be given
side by side, each waiting for calls of its own; here the calls are answered at once, so that the
mailboxes come after the user. That changes no result: one of the two calls the registry alone and the
other the store alone, the request goes on only when both have succeeded, and a failure of either ends
it with the same answer. -/
def provision (stages : Stages β) (input : β) (caller : Caller) (t : Trace) :
    Script (Except Error Response × Trace) := do
  let t ← t.step .provisioning
  match ← (stages.provisionUser caller).run with
  | .error cause => pure (.error (.provisioning cause), t)
  | .ok () =>
    match ← (stages.provisionMailboxes caller).run with
    | .error cause => pure (.error (.provisioning cause), t)
    | .ok () => stages.execute input caller t

/-- Takes a request through the stages up to the first that fails. -/
def advance (stages : Stages β) (r : Request) (t : Trace) :
    Script (Except Error Response × Trace) := do
  let t ← t.step .authenticating
  match ← (stages.authenticate r).run with
  | .error cause => pure (.error (.unauthorized cause), t)
  | .ok caller =>
    let t ← t.step .decoding
    match stages.decode r.body with
    | .error cause => pure (.error cause, t)
    | .ok input => stages.provision input caller t

/-- The response to a request with the history of the request. -/
def process (stages : Stages β) (r : Request) : Script (Response × Trace) := do
  let (result, t) ← stages.advance r .start
  match result with
  | .ok response =>
    let t ← t.step .responding
    let t ← t.step .completed
    pure (response, t)
  | .error cause =>
    let verdict := transportRules.resolve cause (.ofList [("path", r.path)])
    Service.log verdict.event
    let t ← t.stepFail verdict.action
    let t ← t.step .completed
    pure (failureResponse verdict.action, t)

/-- The handler that takes requests through the stages. -/
def handler (stages : Stages β) : Handler := fun r => (·.1) <$> stages.process r

end Stages

end MailServer.Http
