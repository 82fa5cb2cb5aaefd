import MailServer.Keyed
import MailServer.Mailbox.Path

/-!
# The mailbox store

The mailboxes of all users, in the order of their paths. A new mailbox gets the next number, and
the mailboxes that enclose it come into being before it.

* `MailServer.Mailbox.Store.create` adds a mailbox with the enclosing ones that are missing.
* `MailServer.Mailbox.Store.deliver` adds a message to a mailbox.
* `MailServer.Mailbox.Store.contains`, `MailServer.Mailbox.Store.status` and
  `MailServer.Mailbox.Store.list` read the store.
-/

namespace MailServer.Mailbox

/-- The number of a mailbox, which is also the validity value of its message numbers. -/
structure Id where
  number : UInt32
deriving DecidableEq, Repr

/-- A number in decimal. -/
def Id.render (id : Id) : String := toString id.number.toNat

/-- What the store keeps of a mailbox. -/
structure Entry where
  id : Id
  messages : UInt32
  uidNext : UInt32
deriving DecidableEq, Repr

/-- A mailbox in a listing. -/
structure Listing where
  id : Id
  path : Path
  messages : UInt32
deriving DecidableEq, Repr

/-- What a client is told about a mailbox that it selects. -/
structure Status where
  messages : UInt32
  uidNext : UInt32
  uidValidity : UInt32
deriving DecidableEq, Repr

/-- The mailboxes of all users. -/
structure Store where
  /-- The most characters that a name may have. -/
  limit : Nat
  /-- The delimiter by which enclosing mailboxes are found. -/
  delimiter : Char
  /-- The number given out last. -/
  lastId : UInt32
  /-- In increasing order of the paths, each path once. -/
  entries : List (Path × Entry)
deriving Repr

namespace Store

/-- A store without mailboxes. -/
def empty (limit : Nat) (delimiter : Char) : Store := ⟨limit, delimiter, 0, []⟩

/-- What is kept under a path. -/
def entryAt? (s : Store) (p : Path) : Option Entry := Keyed.find? p s.entries

/-- The path is that of a mailbox. -/
def contains (s : Store) (p : Path) : Bool := (s.entryAt? p).isSome

/-- Adds an empty mailbox with the next number. -/
def add (s : Store) (p : Path) : Store :=
  let id := s.lastId + 1
  { s with lastId := id, entries := Keyed.insert p ⟨⟨id⟩, 0, 1⟩ s.entries }

/-- Adds the mailbox unless it is there. -/
def ensure (s : Store) (p : Path) : Store := if s.contains p then s else s.add p

/-- Creates a mailbox: the store after, and the number of the mailbox or why there is none. -/
def create (s : Store) (p : Path) : Except Error Id × Store :=
  if s.limit < p.name.length then (.error (.nameTooLong p.name s.limit), s)
  else if s.contains p then (.error (.alreadyExists p.render), s)
  else
    let t := ((p.ancestors s.delimiter).foldl ensure s).add p
    (.ok ⟨t.lastId⟩, t)

/-- Adds a message to a mailbox: the store after, and how many messages the mailbox has. -/
def deliver (s : Store) (p : Path) : Except Error UInt32 × Store :=
  match s.entryAt? p with
  | none => (.error (.notFound p.render), s)
  | some e =>
    let e := { e with messages := e.messages + 1, uidNext := e.uidNext + 1 }
    (.ok e.messages, { s with entries := Keyed.insert p e s.entries })

/-- What a client is told about a mailbox. -/
def status (s : Store) (p : Path) : Except Error Status :=
  match s.entryAt? p with
  | none => .error (.notFound p.render)
  | some e => .ok ⟨e.messages, e.uidNext, e.id.number⟩

/-- The mailboxes of a user, in the order of their names. -/
def list (s : Store) (user : String) : List Listing :=
  (s.entries.filter (·.1.user == user)).map fun (p, e) => ⟨e.id, p, e.messages⟩

end Store

end MailServer.Mailbox
