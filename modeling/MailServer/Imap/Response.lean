import MailServer.Mailbox.Store

/-!
# Responses of an IMAP session

A command is answered by lines. Untagged lines tell the client about the selected mailbox; one
tagged line tells it how the command ended.

* `MailServer.Imap.Status`, `MailServer.Imap.Reason` and `MailServer.Imap.Code` are the parts of a
  tagged line, each with its spelling.
* `MailServer.Imap.Tagged` is a tagged line and `MailServer.Imap.Response` any line.
* `MailServer.Imap.Response.render` is a line as it is sent, without its line end.
-/

namespace MailServer.Imap

/-! ## Parts of a line -/

/-- How a command ended. -/
inductive Status where
  | ok
  | no
  | bad
deriving DecidableEq, Repr

/-- The word for a status. -/
def Status.name : Status → String
  | ok => "OK"
  | no => "NO"
  | bad => "BAD"

/-- Why a command ended as it did. -/
inductive Reason where
  | completed
  | mailboxExists
  | badMailboxName
  | noSuchMailbox
  | processingFailed
deriving DecidableEq, Repr

namespace Reason

/-- The fixed identifier of a reason. -/
def key : Reason → String
  | completed => "COMPLETED"
  | mailboxExists => "MAILBOX_EXISTS"
  | badMailboxName => "FAILURE_MAILBOX_NAME"
  | noSuchMailbox => "FAILURE_NO_SUCH_MAILBOX"
  | processingFailed => "GENERIC_FAILURE_DURING_PROCESSING"

/-- The wording of a reason in a tagged line. -/
def text : Reason → String
  | completed => "completed."
  | mailboxExists => "failed. Mailbox already exists."
  | badMailboxName => "failed. Invalid mailbox name."
  | noSuchMailbox => "failed. No such mailbox."
  | processingFailed => "processing failed."

end Reason

/-- What a line says in brackets. -/
inductive Code where
  | readWrite
  | uidValidity (value : UInt32)
  | uidNext (value : UInt32)
deriving DecidableEq, Repr

/-- A number in decimal. -/
def decimal (n : UInt32) : String := toString n.toNat

/-- A code between brackets. -/
def Code.render : Code → String
  | readWrite => "[READ-WRITE]"
  | uidValidity value => "[UIDVALIDITY " ++ decimal value ++ "]"
  | uidNext value => "[UIDNEXT " ++ decimal value ++ "]"

/-! ## Lines -/

/-- The line that ends the answer to a command. -/
structure Tagged where
  tag : String
  status : Status
  code : Option Code
  /-- The name of the command. -/
  command : String
  reason : Reason
deriving DecidableEq, Repr

namespace Tagged

/-- The line for a command that was carried out. -/
def completed (tag command : String) (code : Option Code) : Tagged :=
  ⟨tag, .ok, code, command, .completed⟩

/-- A code with a blank before it, where there is a code. -/
def codePart : Option Code → String
  | some code => " " ++ code.render
  | none => ""

/-- The line as it is sent. -/
def render (t : Tagged) : String :=
  t.tag ++ " " ++ t.status.name ++ codePart t.code ++ " " ++ t.command ++ " " ++ t.reason.text

end Tagged

/-- The flags that messages may have in every mailbox. -/
def systemFlags : String := "(\\Answered \\Flagged \\Deleted \\Seen \\Draft)"

/-- A line of an answer. -/
inductive Response where
  /-- How many messages the selected mailbox has. -/
  | messages (count : UInt32)
  /-- How many messages are recent. -/
  | recent (count : UInt32)
  | flags
  /-- A code with a text for people. -/
  | notice (code : Code) (text : String)
  | tagged (line : Tagged)
deriving DecidableEq, Repr

namespace Response

/-- The line as it is sent, without its line end. -/
def render : Response → String
  | messages count => "* " ++ decimal count ++ " EXISTS"
  | recent count => "* " ++ decimal count ++ " RECENT"
  | flags => "* FLAGS " ++ systemFlags
  | notice code text => "* OK " ++ code.render ++ " " ++ text
  | tagged line => line.render

/-- The tagged line, if this is one. -/
def tagged? : Response → Option Tagged
  | tagged line => some line
  | _ => none

/-- The line with its line end, as it goes to the client. -/
def wire (r : Response) : String := r.render ++ "\r\n"

end Response

end MailServer.Imap
