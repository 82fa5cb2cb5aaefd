import MailServer.Jmap.Listing
import MailServer.Mailbox.Path

/-!
# Creating mailboxes

The method `setMailboxes` creates mailboxes, each under an id that the client makes up for it. A
creation that cannot be done is answered under its id and does not keep the others from being
done; a fault of the store ends the call.

* `MailServer.Jmap.Creation` is one creation and `MailServer.Jmap.Outcome` its outcome.
* `MailServer.Jmap.creationPath` finds the path of the new mailbox.
* `MailServer.Jmap.create` does one creation, `MailServer.Jmap.createAll` all of a call.
* `MailServer.Jmap.setMailboxes` is the method.
-/

namespace MailServer.Jmap

open Json (Shape Value)
open Mailbox (Id Listing)
open Service (Attempt ask)

/-- A mailbox to be created, inside the mailbox with the given id or at the top. -/
structure Creation where
  name : String
  parentId : Option String
deriving DecidableEq, Repr

/-- What became of a creation. -/
inductive Outcome where
  | created (id : Id)
  | notCreated (type : String) (description : String)
deriving DecidableEq, Repr

namespace Outcome

/-- A creation that asks for something impossible. -/
def invalid (description : String) : Outcome := notCreated "invalidArguments" description

/-- The outcome as a JSON value. -/
def toValue : Outcome → Value
  | created id => .ofMembers [("id", .string id.render)]
  | notCreated type description =>
    .ofMembers [("type", .string type), ("description", .string description)]

/-- The mailbox was created. -/
def isCreated : Outcome → Bool
  | created _ => true
  | notCreated _ _ => false

end Outcome

/-! ## Arguments -/

/-- A creation, as an object or as a list of its fields. -/
def creationShape : Shape Creation
  | .object members => do
    -- The fields come in the order of their names, and the first that is wrong counts.
    let name ← Shape.field "name" .text members
    let parentId ← Shape.field "parentId" (.optional .text) members
    match name with
    | some name => pure ⟨name, parentId.join⟩
    | none => .error (.missingField "name")
  | .array items =>
    match items with
    | [] => .error (.wrongLength 0 "struct MailboxCreation with 2 elements")
    | v :: rest => do
      let name ← Shape.text v
      let parentId ← match rest with
        | [] => pure none
        | v :: _ => Shape.optional .text v
      Shape.noMore items 2
      pure ⟨name, parentId⟩
  | v => Shape.refuse "struct MailboxCreation" v

/-- The creations of a call by their ids, in the order of the ids. -/
def creationArguments : Shape (List (String × Creation))
  | .object members => do
    let creations ← Shape.field "create" (.tableOf creationShape) members
    pure (creations.getD [])
  | .array items => do
    let creations ← match items with
      | [] => pure []
      | v :: _ => Shape.tableOf creationShape v
    Shape.noMore items 1
    pure creations
  | v => Shape.refuse "struct SetMailboxesArguments" v

/-! ## Creating -/

/-- The path of a mailbox to be created, or what is wrong with the creation. The parent is looked
for among the mailboxes that were listed before. -/
def creationPath (caller : Caller) (existing : List Listing) (c : Creation) :
    Except String Mailbox.Path :=
  if c.name.isEmpty || c.name.toList.contains caller.delimiter then
    .error ("mailbox name '" ++ c.name ++ "' must be a non-empty leaf name")
  else match c.parentId with
    | some id =>
      match findById? existing id with
      | some parent => .ok (parent.path.child c.name caller.delimiter)
      | none => .error ("parent mailbox " ++ id ++ " not found")
    | none => (Mailbox.resolve caller c.name).mapError (·.message)

/-- Does one creation. -/
def create (caller : Caller) (existing : List Listing) (c : Creation) :
    Attempt MethodError Outcome :=
  match creationPath caller existing c with
  | .error description => pure (.invalid description)
  | .ok path => do
    match ← (ask (.createMailbox path) : Service.Script _) with
    | .ok id => pure (.created id)
    | .error cause =>
      match cause with
      | .alreadyExists _ => pure (.notCreated "mailboxExists" cause.message)
      | .nameTooLong _ _ | .invalidName _ _ => pure (.invalid cause.message)
      | _ => throw (.mailbox cause)

/-- Does the creations of a call one after the other, up to a fault of the store. -/
def createAll (caller : Caller) (existing : List Listing) :
    List (String × Creation) → Attempt MethodError (List (String × Outcome))
  | [] => pure []
  | (id, c) :: rest => do
    let result ← create caller existing c
    let results ← createAll caller existing rest
    pure ((id, result) :: results)

/-- The answer to a call: the outcomes apart by whether the mailbox was created. -/
def creationValue (user : String) (outcomes : List (String × Outcome)) : Value :=
  let members (keep : Outcome → Bool) : Value :=
    .ofMembers ((outcomes.filter (keep ·.2)).map fun (id, o) => (id, o.toValue))
  .ofMembers [
    ("accountId", .string user),
    ("created", members (·.isCreated)),
    ("notCreated", members (!·.isCreated))]

/-- The mailboxes among which parents are looked for. They are listed only where some creation
names a parent. -/
def parentsOf (caller : Caller) (creations : List (String × Creation)) :
    Attempt MethodError (List Listing) :=
  if creations.any (·.2.parentId.isSome) then do
    match ← (ask (.listMailboxes caller.user) : Service.Script _) with
    | .ok mailboxes => pure mailboxes
    | .error cause => throw (.mailbox cause)
  else pure []

/-- Creates mailboxes of the caller. -/
def setMailboxes : Method where
  name := "setMailboxes"
  responseName := "mailboxesSet"
  process v caller := do
    let creations ← argumentsOf creationArguments v
    let existing ← parentsOf caller creations
    let outcomes ← createAll caller existing creations
    pure (creationValue caller.user outcomes)

end MailServer.Jmap
