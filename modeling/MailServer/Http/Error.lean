import MailServer.Account.Registry
import MailServer.Http.Credential
import MailServer.Http.Progress
import MailServer.Json.Error
import MailServer.Log

/-!
# What a request can fail with

Clients learn only the kind of a failure; the cause goes to the log.

* `MailServer.Http.Error` lists the causes, with their wording and their kind.
* `MailServer.Http.transportRules` classifies them.
* `MailServer.Http.failureResponse` is the response to a failure.
-/

namespace MailServer.Http

/-- Why a request failed. -/
inductive Error where
  | malformed (message : String)
  | unauthorized (cause : CredentialError)
  | provisioning (cause : Account.Error)
  | unsupportedVersion (version : String)
  | unserializable (message : String)
  | internal (message : String)
deriving DecidableEq, Repr

namespace Error

/-- The wording of a cause. -/
def message : Error → String
  | malformed message => "malformed request: " ++ message
  | unauthorized cause => "authentication failed: " ++ cause.message
  | provisioning cause => "provisioning failed: " ++ cause.message
  | unsupportedVersion version => "unsupported JMAP version: " ++ version
  | unserializable message => "failed to serialize response: " ++ message
  | internal message => "internal error: " ++ message

/-- The kind of failure that a cause is. -/
def kind : Error → Failure
  | malformed _ | unsupportedVersion _ => .badRequest
  | unauthorized _ => .unauthorized
  | provisioning _ | unserializable _ | internal _ => .internal

end Error

/-- Requests that cannot be understood or authenticated are the client's; all else is not. -/
def transportRules : Log.Classifier Error Failure where
  rules := [
    { name := "bad-request"
      applies := fun e => e.kind == .badRequest
      action := .badRequest
      level := .debug
      message := "rejected malformed request" },
    { name := "unauthorized"
      applies := fun e => e.kind == .unauthorized
      action := .unauthorized
      level := .debug
      message := "rejected unauthenticated request" }]
  fallback := .internal
  fallbackMessage := "unexpected error while handling request"
  describe := Error.message

/-- The response to a failure. It says nothing about the cause. -/
def failureResponse (kind : Failure) : Response :=
  match kind with
  | .badRequest => .ofStatus kind.status
  | .unauthorized => (Response.ofStatus kind.status).withHeader "WWW-Authenticate" "Bearer"
  | .internal =>
    .ofJson kind.status (Json.Value.render (.ofMembers [("type", .string "serverError")]))

end MailServer.Http
