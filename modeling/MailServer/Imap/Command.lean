import MailServer.Imap.Response
import MailServer.Log
import MailServer.Mailbox.Path
import MailServer.Service.Script

/-!
# IMAP sessions and commands

A session remembers the mailbox that its user has selected and how many messages the client has
been told are in it. `CREATE` makes a mailbox and `SELECT` opens one. Whatever goes wrong is
answered by a tagged line that a table of rules chooses, and nothing else is sent then.

* `MailServer.Imap.Session` is the state of a session, and `MailServer.Imap.Session.poll` looks for
  messages that the client has not been told of.
* `MailServer.Imap.Command` is a command with its tag.
* `MailServer.Imap.createRules` and `MailServer.Imap.selectRules` choose the line for an error.
* `MailServer.Imap.Command.process` carries a command out in a session.
-/

namespace MailServer.Imap

open Service (Attempt Script ask)

/-! ## Sessions -/

/-- The selected mailbox, with the number of messages last told. -/
structure Selection where
  path : Mailbox.Path
  known : UInt32
deriving DecidableEq, Repr

/-- The state of a session. -/
structure Session where
  caller : Caller
  selected : Option Selection
deriving DecidableEq, Repr

namespace Session

/-- A session in which nothing is selected. -/
def start (caller : Caller) : Session := ⟨caller, none⟩

/-- Selects a mailbox of which the client has been told the number of messages. -/
def select (s : Session) (path : Mailbox.Path) (messages : UInt32) : Session :=
  { s with selected := some ⟨path, messages⟩ }

/-- Selects nothing. -/
def deselect (s : Session) : Session := { s with selected := none }

/-- Tells the client how many messages the selected mailbox has, if it does not know. -/
def poll (s : Session) : Attempt Mailbox.Error (Session × List Response) :=
  match s.selected with
  | none => pure (s, [])
  | some selection => do
    let status ← ExceptT.mk (ask (.status selection.path))
    if status.messages = selection.known then pure (s, [])
    else pure (s.select selection.path status.messages, [.messages status.messages])

end Session

/-! ## Commands -/

/-- What a command asks for. -/
inductive Verb where
  | create
  | select
deriving DecidableEq, Repr

/-- The name of a command. -/
def Verb.name : Verb → String
  | create => "CREATE"
  | select => "SELECT"

/-- A command about a mailbox, under the tag that the client chose for it. -/
structure Command where
  tag : String
  verb : Verb
  mailbox : String
deriving DecidableEq, Repr

/-! ## Errors -/

/-- The status and the reason that a failed command is answered with. -/
structure Refusal where
  status : Status
  reason : Reason
deriving DecidableEq, Repr

/-- The tagged line of a refusal. -/
def Refusal.line (r : Refusal) (tag command : String) : Tagged :=
  ⟨tag, r.status, none, command, r.reason⟩

/-- What a `CREATE` is answered that fails. -/
def createRules : Log.Classifier Mailbox.Error Refusal where
  rules := [
    { name := "mailbox-exists"
      applies := fun | .alreadyExists _ => true | _ => false
      action := ⟨.no, .mailboxExists⟩
      level := .debug
      message := "cannot create mailbox: it already exists" },
    { name := "name-too-long"
      applies := fun | .nameTooLong _ _ => true | _ => false
      action := ⟨.bad, .badMailboxName⟩
      level := .debug
      message := "cannot create mailbox: name exceeds the length limit" },
    { name := "mailbox-error"
      applies := Mailbox.Error.isDomain
      action := ⟨.no, .processingFailed⟩
      level := .error
      message := "cannot create mailbox" }]
  fallback := ⟨.no, .processingFailed⟩
  fallbackMessage := "unexpected error while creating mailbox"
  describe := Mailbox.Error.message

/-- What a `SELECT` is answered that fails. -/
def selectRules : Log.Classifier Mailbox.Error Refusal where
  rules := [
    { name := "mailbox-not-found"
      applies := fun | .notFound _ => true | _ => false
      action := ⟨.no, .noSuchMailbox⟩
      level := .debug
      message := "cannot select mailbox: it does not exist" },
    { name := "mailbox-error"
      applies := Mailbox.Error.isDomain
      action := ⟨.no, .processingFailed⟩
      level := .error
      message := "cannot select mailbox" }]
  fallback := ⟨.no, .processingFailed⟩
  fallbackMessage := "unexpected error while selecting mailbox"
  describe := Mailbox.Error.message

/-- The rules for the errors of a command. -/
def Verb.rules : Verb → Log.Classifier Mailbox.Error Refusal
  | create => createRules
  | select => selectRules

/-! ## Carrying out -/

/-- The lines that describe a mailbox just selected. -/
def openingLines (status : Mailbox.Status) : List Response := [
  .flags,
  .messages status.messages,
  .recent 0,
  .notice (.uidValidity status.uidValidity) "UIDs valid",
  .notice (.uidNext status.uidNext) "Predicted next UID"]

namespace Command

/-- The line for a command that was carried out. -/
def completed (c : Command) (code : Option Code) : Response :=
  .tagged (.completed c.tag c.verb.name code)

/-- Creates the mailbox, and tells the client of new messages in the selected one. -/
def create (c : Command) (s : Session) : Attempt Mailbox.Error (Session × List Response) := do
  let path ← Mailbox.resolve s.caller c.mailbox
  let _ ← ExceptT.mk (ask (.createMailbox path))
  let (s, news) ← s.poll
  pure (s, news ++ [c.completed none])

/-- Selects the mailbox and describes it. -/
def select (c : Command) (s : Session) : Attempt Mailbox.Error (Session × List Response) := do
  let path ← Mailbox.resolve s.caller c.mailbox
  let status ← ExceptT.mk (ask (.status path))
  pure (s.select path status.messages, openingLines status ++ [c.completed (some .readWrite)])

/-- What the command does when nothing goes wrong. -/
def attempt (c : Command) (s : Session) : Attempt Mailbox.Error (Session × List Response) :=
  match c.verb with
  | .create => c.create s
  | .select => c.select s

/-- The session after a command that failed: a failed `SELECT` leaves nothing selected. -/
def sessionAfterFailure (c : Command) (s : Session) : Session :=
  match c.verb with
  | .create => s
  | .select => s.deselect

/-- The context in which the errors of a command are logged. -/
def context (c : Command) : Log.Context :=
  .ofList [("action", c.verb.name), ("mailbox", c.mailbox)]

/-- Carries out a command: the session after it and the lines of the answer. -/
def process (c : Command) (s : Session) : Script (Session × List Response) := do
  match ← (c.attempt s).run with
  | .ok result => pure result
  | .error cause =>
    let verdict := c.verb.rules.resolve cause c.context
    Service.log verdict.event
    pure (c.sessionAfterFailure s, [.tagged (verdict.action.line c.tag c.verb.name)])

end Command

end MailServer.Imap
