import MailServer.Account.Provision
import MailServer.Jmap.Method

/-!
# Listing mailboxes

The method `getMailboxes` shows the mailboxes of the caller as a forest: every mailbox by the last
component of its name, with the number of the mailbox that encloses it.

* `MailServer.Jmap.View` is a mailbox as it is shown and `MailServer.Jmap.View.ofListing` how it
  comes about.
* `MailServer.Jmap.chooseViews` picks the mailboxes that a call asks for.
* `MailServer.Jmap.getMailboxes` is the method.
-/

namespace MailServer.Jmap

open Json (Shape Value)
open Mailbox (Id Listing)

/-- A mailbox as it is shown to its user. -/
structure View where
  id : Id
  name : String
  parent : Option Id
  role : Option String
  messages : UInt32
deriving DecidableEq, Repr

/-- What a mailbox is for: its name in lower case, where it is a default mailbox at the top. -/
def roleOf (d : Char) (name : String) : Option String :=
  if name.toList.contains d then none
  else (Account.defaultMailboxes.find? fun known => Text.sameFolded known name).map Text.folded

/-- The number under which a path is listed; of several the last. -/
def idAt? (mailboxes : List Listing) (path : Mailbox.Path) : Option Id :=
  (mailboxes.reverse.find? fun m => m.path = path).map (·.id)

namespace View

/-- A listed mailbox as it is shown among the others. -/
def ofListing (d : Char) (mailboxes : List Listing) (m : Listing) : View where
  id := m.id
  name := m.path.leaf d
  parent := (m.path.parent? d).bind (idAt? mailboxes)
  role := roleOf d m.path.name
  messages := m.messages

/-- A shown mailbox as a JSON value. -/
def toValue (v : View) : Value := .ofMembers [
  ("id", .string v.id.render),
  ("name", .string v.name),
  ("parentId", .ofText? (v.parent.map Id.render)),
  ("role", .ofText? v.role),
  ("totalMessages", .ofNat v.messages.toUInt64)]

end View

/-- The first listed mailbox whose number is written as the given text. -/
def findById? (mailboxes : List Listing) (id : String) : Option Listing :=
  mailboxes.find? fun m => m.id.render == id

/-- The mailboxes that a call asks for, and the ids in it that are nobody's: all mailboxes, or
those with the given ids, in the order of the ids. -/
def chooseViews (d : Char) (mailboxes : List Listing) : Option (List String) → List View × List String
  | none => (mailboxes.map (View.ofListing d mailboxes), [])
  | some ids =>
    (ids.filterMap fun id => (findById? mailboxes id).map (View.ofListing d mailboxes),
      ids.filter fun id => (findById? mailboxes id).isNone)

/-- The arguments of a listing: the ids asked for, or none for all. -/
def listingArguments : Shape (Option (List String))
  | .object members => do
    let ids ← Shape.field "ids" (.optional (.listOf .text)) members
    pure ids.join
  | .array items => do
    let ids ← match items with
      | [] => pure none
      | v :: _ => Shape.optional (.listOf .text) v
    Shape.noMore items 1
    pure ids
  | v => Shape.refuse "struct GetMailboxesArguments" v

/-- The answer to a listing. -/
def listingValue (user : String) (views : List View) (notFound : List String) : Value :=
  .ofMembers [
    ("accountId", .string user),
    ("list", .array (views.map View.toValue)),
    ("notFound", .array (notFound.map .string))]

/-- Lists the mailboxes of the caller, all of them or those asked for. -/
def getMailboxes : Method where
  name := "getMailboxes"
  responseName := "mailboxes"
  process v caller := do
    let ids ← argumentsOf listingArguments v
    match ← (Service.ask (.listMailboxes caller.user) : Service.Script _) with
    | .error cause => throw (.mailbox cause)
    | .ok mailboxes =>
      let (views, notFound) := chooseViews caller.delimiter mailboxes ids
      pure (listingValue caller.user views notFound)

end MailServer.Jmap
