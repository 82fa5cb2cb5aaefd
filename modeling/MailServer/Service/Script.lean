import MailServer.Account.Registry
import MailServer.Log
import MailServer.Mailbox.Store

/-!
# Scripts of calls

Commands do not touch the mailbox store or the user registry themselves. They are scripts: they
make calls and go on with the replies. What the calls do is left to whoever runs the script, so
that one script can be run against a store, against a store that fails, together with other
scripts, or up to the point where its connection closes.

* `MailServer.Service.Call` is one operation on the store or the registry and
  `MailServer.Service.Call.Reply` what it is answered with.
* `MailServer.Service.Script` is a script. It is a monad; `MailServer.Service.ask` makes a call and
  `MailServer.Service.note` leaves a note.
* `MailServer.Service.Attempt` is a script that may end in an error.
* `MailServer.Service.Script.run` runs a script where every call is answered, and
  `MailServer.Service.Script.runUntil` one where a call may stay without an answer, which is the end
  of it.
* `MailServer.Service.Timer` is a timer; it runs from its start until it is stopped or given up, and
  its duration is recorded then, once.
* `MailServer.Service.Backend` is a mailbox store with a user registry;
  `MailServer.Service.Backend.answer` carries a call out and `MailServer.Service.Backend.run` runs a
  script.
-/

namespace MailServer.Service

/-! ## Calls -/

/-- An operation on the mailbox store or on the user registry. -/
inductive Call where
  | createMailbox (path : Mailbox.Path)
  | mailboxExists (path : Mailbox.Path)
  | status (path : Mailbox.Path)
  | listMailboxes (user : String)
  | containsUser (user : String)
  | addUser (user : String)
deriving DecidableEq, Repr

/-- What an operation is answered with. -/
abbrev Call.Reply : Call → Type
  | createMailbox _ => Except Mailbox.Error Mailbox.Id
  | mailboxExists _ => Except Mailbox.Error Bool
  | status _ => Except Mailbox.Error Mailbox.Status
  | listMailboxes _ => Except Mailbox.Error (List Mailbox.Listing)
  | containsUser _ => Except Account.Error Bool
  | addUser _ => Except Account.Error Unit

/-- What a script leaves behind besides its result. -/
inductive Note where
  /-- An event. -/
  | logged (event : Log.Event)
  /-- The duration of something named was taken. -/
  | timed (name : String)
deriving DecidableEq, Repr

/-! ## Scripts -/

/-- A script with a result of type `α`. -/
inductive Script (α : Type) where
  | done (value : α)
  | call (c : Call) (next : c.Reply → Script α)
  | note (n : Note) (next : Script α)

namespace Script

variable {α β γ : Type}

/-- The script that goes on with another one where the first ends. -/
def bind : Script α → (α → Script β) → Script β
  | done a, f => f a
  | call c next, f => call c fun reply => (next reply).bind f
  | note n next, f => note n (next.bind f)

instance : Monad Script where
  pure := done
  bind := bind

@[simp] theorem pure_eq (a : α) : (pure a : Script α) = done a := rfl

@[simp] theorem bind_eq (s : Script α) (f : α → Script β) : s >>= f = s.bind f := rfl

@[simp] theorem bind_done (a : α) (f : α → Script β) : (done a).bind f = f a := rfl

@[simp] theorem bind_call (c : Call) (next : c.Reply → Script α) (f : α → Script β) :
    (call c next).bind f = call c fun reply => (next reply).bind f := rfl

@[simp] theorem bind_note (n : Note) (next : Script α) (f : α → Script β) :
    (note n next).bind f = note n (next.bind f) := rfl

theorem bind_done_right (s : Script α) : s.bind done = s := by
  induction s with
  | done a => rfl
  | call c next ih => simp [ih]
  | note n next ih => simp [ih]

theorem bind_assoc (s : Script α) (f : α → Script β) (g : β → Script γ) :
    (s.bind f).bind g = s.bind fun a => (f a).bind g := by
  induction s with
  | done a => rfl
  | call c next ih => simp [ih]
  | note n next ih => simp [ih]

instance : LawfulMonad Script := LawfulMonad.mk' Script bind_done_right (fun _ _ => rfl) bind_assoc

end Script

/-- Makes a call and gives its reply. -/
def ask (c : Call) : Script c.Reply := .call c .done

/-- Leaves a note. -/
def note (n : Note) : Script Unit := .note n (.done ())

/-- Leaves an event. -/
def log (event : Log.Event) : Script Unit := note (.logged event)

/-- A script that ends in a value or in an error. -/
abbrev Attempt (ε α : Type) := ExceptT ε Script α

/-! ## Running -/

namespace Script

variable {α σ : Type}

/-- Runs a script where every call is answered: the result, the state after, and the notes. -/
def run (answer : (c : Call) → σ → c.Reply × σ) : Script α → σ → α × σ × List Note
  | done a, s => (a, s, [])
  | call c next, s =>
    let (reply, s) := answer c s
    (next reply).run answer s
  | note n next, s =>
    let (a, s, notes) := next.run answer s
    (a, s, n :: notes)

/-- Runs a script where a call may stay without an answer. The result is then missing; the state
and the notes are those up to that call. -/
def runUntil (answer : (c : Call) → σ → Option c.Reply × σ) :
    Script α → σ → Option α × σ × List Note
  | done a, s => (some a, s, [])
  | call c next, s =>
    match answer c s with
    | (some reply, s) => (next reply).runUntil answer s
    | (none, s) => (none, s, [])
  | note n next, s =>
    let (a, s, notes) := next.runUntil answer s
    (a, s, n :: notes)

/-- Where every call is answered, the two ways of running agree. -/
theorem runUntil_some (answer : (c : Call) → σ → c.Reply × σ) (script : Script α) (s : σ) :
    script.runUntil (fun c s => (some (answer c s).1, (answer c s).2)) s =
      (some (script.run answer s).1, (script.run answer s).2) := by
  induction script generalizing s with
  | done a => rfl
  | call c next ih => simp [runUntil, run, ih]
  | note n next ih => simp [runUntil, run, ih]

end Script

/-! ## Timers -/

/-- A running timer, or one whose duration has been recorded. -/
structure Timer where
  name : String
  recorded : Bool
deriving DecidableEq, Repr

namespace Timer

/-- Starts a timer. -/
def start (name : String) : Timer := ⟨name, false⟩

/-- Records the duration unless it has been recorded. -/
def record (t : Timer) : Script Timer :=
  if t.recorded then pure t
  else do
    note (.timed t.name)
    pure { t with recorded := true }

/-- Gives a timer up. -/
def release (t : Timer) : Script Unit := do
  let _ ← t.record

/-- Stops a timer and gives it up. -/
def stop (t : Timer) : Script Unit := do
  let t ← t.record
  t.release

theorem release_start (name : String) : (start name).release = note (.timed name) := rfl

theorem stop_start (name : String) : (start name).stop = note (.timed name) := rfl

end Timer

/-! ## The store and the registry behind the calls -/

/-- The mailboxes and the users of a server. -/
structure Backend where
  store : Mailbox.Store
  registry : Account.Registry
deriving Repr

namespace Backend

/-- A server without mailboxes and users. -/
def empty (limit : Nat) (delimiter : Char) : Backend := ⟨.empty limit delimiter, .empty⟩

/-- Carries out a call. -/
def answer (c : Call) (b : Backend) : c.Reply × Backend :=
  match c with
  | .createMailbox path =>
    let (reply, store) := b.store.create path
    (reply, { b with store := store })
  | .mailboxExists path => (.ok (b.store.contains path), b)
  | .status path => (b.store.status path, b)
  | .listMailboxes user => (.ok (b.store.list user), b)
  | .containsUser user => (.ok (b.registry.contains user), b)
  | .addUser user => (.ok (), { b with registry := b.registry.add user })

/-- Runs a script: its result, the mailboxes and users after it, and its notes. -/
def run {α : Type} (script : Script α) (b : Backend) : α × Backend × List Note :=
  script.run answer b

end Backend

end MailServer.Service
