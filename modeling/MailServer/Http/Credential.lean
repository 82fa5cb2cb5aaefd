import MailServer.Mailbox.Path
import MailServer.Http.Message
import MailServer.Text.Basic

/-!
# Credentials

A request carries a bearer token in its `Authorization` field, with or without the name of the
scheme before it. Registered tokens stand for users.

* `MailServer.Http.CredentialError` is why a request has no caller.
* `MailServer.Http.tokenOf?` takes the token out of the field.
* `MailServer.Http.Tokens` are the registered tokens and `MailServer.Http.Tokens.authenticate`
  finds the caller of a request.
-/

namespace MailServer.Http

/-- Why a request was not authenticated. -/
inductive CredentialError where
  | missing
  | invalid
deriving DecidableEq, Repr

/-- The wording of a cause. -/
def CredentialError.message : CredentialError → String
  | missing => "no credentials supplied"
  | invalid => "credentials rejected"

/-- The token in an `Authorization` field: what follows the scheme `Bearer`, or the whole field
where it is a single word. Blanks around it do not count, and it is not empty. -/
def tokenOf? (field : String) : Option String :=
  let cs := Text.trimChars field.toList
  let token := match Text.cutFirst ' ' cs with
    | some (scheme, rest) =>
      if Text.sameFolded (String.ofList scheme) "bearer" then some (Text.trimChars rest) else none
    | none => some cs
  match token with
  | some (c :: cs) => some (String.ofList (c :: cs))
  | _ => none

/-- The registered tokens, the latest registration first, and the delimiter of their sessions. -/
structure Tokens where
  users : List (String × String)
  delimiter : Char
deriving DecidableEq, Repr

namespace Tokens

/-- No tokens. -/
def empty (delimiter : Char) : Tokens := ⟨[], delimiter⟩

/-- Registers a token for a user. The latest registration of a token counts. -/
def register (token user : String) (t : Tokens) : Tokens := { t with users := (token, user) :: t.users }

/-- The user that a token stands for. -/
def user? (t : Tokens) (token : String) : Option String := t.users.lookup token

/-- The caller of a request. -/
def authenticate (t : Tokens) (r : Request) : Except CredentialError Caller :=
  match r.header? "Authorization" with
  | none => .error .missing
  | some field =>
    match (tokenOf? field).bind t.user? with
    | none => .error .invalid
    | some user => .ok ⟨user, t.delimiter⟩

end Tokens

end MailServer.Http
