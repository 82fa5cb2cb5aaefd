import MailServer.Http.Stages
import MailServer.Jmap.Creation

/-!
# Carrying out a batch

The calls of a batch are carried out one after the other. A call that fails is answered by an
error and logged, and the next one goes on.

* `MailServer.Jmap.Methods` is a table of methods, the one registered last winning.
* `MailServer.Jmap.Methods.execute` carries out a call, `MailServer.Jmap.Methods.dispatch` a batch.
* `MailServer.Jmap.stages` are the stages of a request that carries a batch.
-/

namespace MailServer.Jmap

open Json (Value)
open Service (Script)

/-- The methods that a server has, the one registered last first. -/
structure Methods where
  methods : List Method

namespace Methods

/-- No methods. -/
def empty : Methods := ⟨[]⟩

/-- The table with a method registered under its name. -/
def register (method : Method) (t : Methods) : Methods := ⟨method :: t.methods⟩

/-- The two mailbox methods. -/
def mailboxMethods : Methods := (empty.register getMailboxes).register setMailboxes

/-- The method of a name. -/
def find? (t : Methods) (name : String) : Option Method := t.methods.find? (·.name == name)

/-- The context in which the errors of a call are logged. -/
def context (i : Invocation) : Log.Context :=
  .ofList [("protocol", "jmap"), ("action", i.method), ("call_id", i.callId)]

/-- What a call comes to: a name with a value, or an error. -/
def call (t : Methods) (i : Invocation) (caller : Caller) :
    Script (Except MethodError (String × Value)) :=
  match t.find? i.method with
  | none => pure (.error (.unknownMethod i.method))
  | some method => do
    let result ← (method.process i.arguments caller).run
    pure (result.map fun v => (method.responseName, v))

/-- Carries out a call. An error becomes the answer, and is logged. -/
def execute (t : Methods) (i : Invocation) (caller : Caller) : Script Result := do
  match ← t.call i caller with
  | .ok (name, value) => pure ⟨name, value, i.callId⟩
  | .error cause =>
    let verdict := methodRules.resolve cause (context i)
    Service.log verdict.event
    pure (.failed (verdict.action.toValue cause) i.callId)

/-- Carries out the calls of a batch in order. -/
def dispatch (t : Methods) (caller : Caller) : List Invocation → Script (List Result)
  | [] => pure []
  | i :: rest => do
    let result ← t.execute i caller
    let results ← t.dispatch caller rest
    pure (result :: results)

end Methods

/-- The name under which the duration of a batch is recorded. -/
def requestTimer : String := "JMAP-request"

/-- The response to a batch. -/
def respond (results : List Result) : Http.Response := .ofJson 200 (Result.renderAll results)

/-- The stages of a request that carries a batch, for callers known by their tokens. -/
def stages (tokens : Http.Tokens) (methods : Methods) : Http.Stages (List Invocation) where
  authenticate r := tokens.authenticate r
  decode := Batch.parse
  provisionUser := Account.provisionUser
  provisionMailboxes := Account.provisionMailboxes
  handle batch caller := do
    let results ← (methods.dispatch caller batch : Script _)
    pure (respond results)
  timer := requestTimer

end MailServer.Jmap
