import MailServer.Imap.Command

/-!
# IMAP connections

On a connection the answer to a command is written when the command has been carried out. A
connection that closes before that writes nothing of it; a call that is still without an answer
is given up.

* `MailServer.Imap.Outlet` is the output of a connection, which may fail or hang.
* `MailServer.Imap.Connection` is a session with its output.
* `MailServer.Imap.Connection.execute` carries a command out and writes the answer.
-/

namespace MailServer.Imap

open Service (Call Note)

/-! ## Output -/

/-- Why a write did not succeed. -/
inductive WriteFault where
  | failed (reason : String)
  /-- The write does not return until the connection closes. -/
  | stalled
deriving DecidableEq, Repr

/-- The output of a connection. -/
structure Outlet where
  /-- How many more writes succeed; all of them where there is no number. -/
  writesLeft : Option Nat
  /-- What happens to a write after these. -/
  atLimit : WriteFault
  /-- Why flushing fails, if it does. -/
  flushFault : Option String
deriving DecidableEq, Repr

namespace Outlet

/-- An output on which everything succeeds. -/
def unlimited : Outlet := ⟨none, .stalled, none⟩

/-- One write. -/
def write (o : Outlet) : Except WriteFault Outlet :=
  match o.writesLeft with
  | none => .ok o
  | some 0 => .error o.atLimit
  | some (n + 1) => .ok { o with writesLeft := some n }

/-- The end of an answer. -/
def flush (o : Outlet) : Except WriteFault Unit :=
  match o.flushFault with
  | none => .ok ()
  | some reason => .error (.failed reason)

/-- Writes texts one by one and flushes: the text that was written, the output after it, and what
went wrong. -/
def writeAll (o : Outlet) : List String → String × Outlet × Except WriteFault Unit
  | [] => ("", o, o.flush)
  | line :: rest =>
    match o.write with
    | .error fault => ("", o, .error fault)
    | .ok o =>
      let (written, o, result) := o.writeAll rest
      (line ++ written, o, result)

end Outlet

/-! ## Connections -/

/-- A connection: the session, the output, and whether it has closed. -/
structure Connection where
  session : Session
  outlet : Outlet
  closed : Bool
deriving DecidableEq, Repr

/-- How a command ended on its connection. -/
inductive Completion where
  | completed
  /-- The connection closed first. -/
  | abandoned
  | failed (reason : String)
deriving DecidableEq, Repr

/-- The wording of a failed write. -/
def writeFailure (reason : String) : String := "failed to write response: " ++ reason

/-- What a command came to: how it ended and the text that was written. -/
structure Execution where
  completion : Completion
  written : String
deriving DecidableEq, Repr

/-- A command of which nothing was written. -/
def Execution.abandoned : Execution := ⟨.abandoned, ""⟩

namespace Connection

/-- A connection that has just been opened. -/
def start (caller : Caller) (outlet : Outlet) : Connection := ⟨.start caller, outlet, false⟩

/-- Closes a connection. -/
def close (c : Connection) : Connection := { c with closed := true }

/-- Writes an answer unless the connection has closed. A write that hangs is given up when the
connection closes. -/
def respond (c : Connection) (lines : List Response) : Execution × Connection :=
  if c.closed then (.abandoned, c)
  else
    let (written, outlet, result) := c.outlet.writeAll (lines.map Response.wire)
    let c := { c with outlet := outlet }
    match result with
    | .ok () => (⟨.completed, written⟩, c)
    | .error (.failed reason) => (⟨.failed reason, written⟩, c)
    | .error .stalled => (⟨.abandoned, written⟩, c.close)

/-- Carries out a command and writes the answer. A call without an answer lasts until the
connection closes. `hangUp` says that the client leaves after the command has been carried out
and before anything is written. -/
def execute {σ : Type} (answer : (c : Call) → σ → Option c.Reply × σ) (hangUp : Bool)
    (c : Connection) (command : Command) (s : σ) : Execution × Connection × σ × List Note :=
  if c.closed then (.abandoned, c, s, [])
  else
    match (command.process c.session).runUntil answer s with
    | (none, s, notes) => (.abandoned, c.close, s, notes)
    | (some (session, lines), s, notes) =>
      let c := { c with session := session, closed := hangUp }
      let (execution, c) := c.respond lines
      (execution, c, s, notes)

end Connection

end MailServer.Imap
