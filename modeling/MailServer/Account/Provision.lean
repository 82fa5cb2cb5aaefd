import MailServer.Mailbox.Path
import MailServer.Service.Script

/-!
# What every user has

On first contact a user is entered in the registry and given the default mailboxes. Both steps are
repeated for every request and do nothing where nothing is missing.

* `MailServer.Account.defaultMailboxes` are the names of the default mailboxes.
* `MailServer.Account.provisionUser` and `MailServer.Account.provisionMailboxes` are the two steps.
-/

namespace MailServer.Account

open Service (Attempt ask log)

/-- The mailboxes that every user is given, in the order in which they are created. -/
def defaultMailboxes : List String := ["INBOX", "Outbox", "Sent", "Trash", "Drafts"]

/-- Lifts the reply of the registry into an attempt. -/
def reply {α : Type} (answer : Service.Script (Except Error α)) : Attempt Error α :=
  ExceptT.mk answer

/-- Enters the caller in the registry unless it is known. -/
def provisionUser (caller : Caller) : Attempt Error Unit := do
  if ← reply (ask (.containsUser caller.user)) then
    pure ()
  else
    reply (ask (.addUser caller.user))
    log ⟨.provision, .info, "user provisioned", [("user", caller.user)]⟩

/-- Creates one default mailbox unless it exists. That it exists by the time it is created is as
good: another request of the same user was faster. -/
def provisionMailbox (caller : Caller) (name : String) : Attempt Error Unit := do
  let path : Mailbox.Path := ⟨caller.user, name⟩
  match ← (ask (.mailboxExists path) : Service.Script _) with
  | .error cause => throw (.mailbox cause)
  | .ok true => pure ()
  | .ok false =>
    match ← (ask (.createMailbox path) : Service.Script _) with
    | .ok _ =>
      log ⟨.provision, .info, "default mailbox provisioned", [("path", path.render)]⟩
    | .error (.alreadyExists _) => pure ()
    | .error cause => throw (.mailbox cause)

/-- Creates the default mailboxes that are missing, in order, up to the first failure. -/
def provisionMailboxes (caller : Caller) : Attempt Error Unit :=
  defaultMailboxes.forM (provisionMailbox caller)

end MailServer.Account
