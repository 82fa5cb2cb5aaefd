import MailServer.Mailbox.Path

/-!
# Known users

The registry keeps the names of the users that the server has met, in increasing order.

* `MailServer.Account.Registry` is the registry.
* `MailServer.Account.Error` is why a user could not be given what every user has.
-/

namespace MailServer.Account

/-- Why a user could not be set up. -/
inductive Error where
  | mailbox (cause : Mailbox.Error)
  | registry (message : String)
deriving DecidableEq, Repr

/-- The wording of a cause. -/
def Error.message : Error → String
  | mailbox cause => "failed to provision mailbox: " ++ cause.message
  | registry message => "user registry failure: " ++ message

/-- The names of the known users, each once, in increasing order. -/
structure Registry where
  users : List String
deriving DecidableEq, Repr

namespace Registry

/-- The registry that knows nobody. -/
def empty : Registry := ⟨[]⟩

/-- The user is known. -/
def contains (r : Registry) (user : String) : Bool := r.users.contains user

/-- Puts a name in its place; a name that is there stays there once. -/
def place (user : String) : List String → List String
  | [] => [user]
  | u :: rest =>
    if user < u then user :: u :: rest else if u < user then u :: place user rest else u :: rest

/-- The registry that knows the user as well. -/
def add (r : Registry) (user : String) : Registry := ⟨place user r.users⟩

end Registry

end MailServer.Account
