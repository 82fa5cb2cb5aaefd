import MailServer.Mailbox.Path
import MailServer.Jmap.Envelope
import MailServer.Json.Shape
import MailServer.Service.Script

/-!
# Methods

A method takes a value of arguments and gives a value, or an error that the client learns of as
the result of its call.

* `MailServer.Jmap.MethodError` is why a call failed.
* `MailServer.Jmap.Method` is a method with the two names it goes by.
* `MailServer.Jmap.ErrorForm` is the form of the object that a client is given for an error.
* `MailServer.Jmap.methodRules` chooses the form.
-/

namespace MailServer.Jmap

open Json (Value)

/-- Why a call failed. -/
inductive MethodError where
  | unknownMethod (name : String)
  | invalidArguments (message : String)
  | mailbox (cause : Mailbox.Error)
deriving DecidableEq, Repr

namespace MethodError

/-- The wording of a cause. -/
def message : MethodError → String
  | unknownMethod name => "unknown method: " ++ name
  | invalidArguments message => "invalid arguments: " ++ message
  | mailbox cause => cause.message

/-- The cause concerns mailboxes and is no internal fault. -/
def isDomain : MethodError → Bool
  | mailbox cause => cause.isDomain
  | _ => false

end MethodError

/-- A method: its name, the name of its answers, and what it does for a caller. -/
structure Method where
  name : String
  responseName : String
  process : Value → Caller → Service.Attempt MethodError Value

/-- The form of an error object: its type, and whether the text of the error goes into it. -/
structure ErrorForm where
  type : String
  described : Bool
deriving DecidableEq, Repr

/-- The object that a client is given for an error. -/
def ErrorForm.toValue (form : ErrorForm) (e : MethodError) : Value :=
  .ofMembers (("type", .string form.type) ::
    if form.described then [("description", .string e.message)] else [])

/-- Errors of the client and of its mailboxes are described to it; an internal fault is not. -/
def methodRules : Log.Classifier MethodError ErrorForm where
  rules := [
    { name := "unknown-method"
      applies := fun | .unknownMethod _ => true | _ => false
      action := ⟨"unknownMethod", false⟩
      level := .debug
      message := "rejected unknown method" },
    { name := "invalid-arguments"
      applies := fun | .invalidArguments _ => true | _ => false
      action := ⟨"invalidArguments", true⟩
      level := .debug
      message := "rejected invalid method arguments" },
    { name := "mailbox-error"
      applies := MethodError.isDomain
      action := ⟨"serverFail", true⟩
      level := .warn
      message := "method failed on a mailbox error" }]
  fallback := ⟨"serverFail", false⟩
  fallbackMessage := "unexpected error while processing method"
  describe := MethodError.message

/-- Reads the arguments of a call by their shape. -/
def argumentsOf {α : Type} (shape : Json.Shape α) (v : Value) : Except MethodError α :=
  (shape v).mapError fun cause => .invalidArguments cause.message

end MailServer.Jmap
