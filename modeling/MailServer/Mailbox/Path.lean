import MailServer.Text.Basic

/-!
# Mailbox paths and names

A mailbox belongs to a user and has a hierarchical name: components separated by a delimiter that
the caller chooses. All mailboxes live in the private namespace of their user.

* `MailServer.Mailbox.Path` is a user with a full name, ordered by user and then by name.
* `MailServer.Mailbox.Path.leaf`, `MailServer.Mailbox.Path.parent?` and
  `MailServer.Mailbox.Path.child` take the last component off and put one on.
* `MailServer.Mailbox.Path.ancestors` lists the enclosing mailboxes, outermost first.
* `MailServer.Mailbox.Error` lists the causes for which an operation on mailboxes fails, and
  `MailServer.Mailbox.Error.isDomain` tells those that concern mailboxes from internal faults.
* `MailServer.Mailbox.resolve` turns a name, as a client writes it, into a path of the caller;
  `MailServer.Mailbox.checkName` says what is wrong with a name and
  `MailServer.Mailbox.canonicalName` gives the inbox its canonical spelling.
-/

namespace MailServer

/-- An authenticated user and the hierarchy delimiter of the session. Every command runs on behalf of
one. -/
structure Caller where
  user : String
  delimiter : Char
deriving DecidableEq, Repr

end MailServer

namespace MailServer.Mailbox

/-! ## Paths -/

/-- The namespace of all mailboxes. -/
def privateNamespace : String := "#private"

/-- The one name whose case is not significant, in its canonical spelling. -/
def inbox : String := "INBOX"

/-- A mailbox of a user. -/
structure Path where
  user : String
  name : String
deriving DecidableEq, Repr

namespace Path

/-- By user, then by name. -/
def before (p q : Path) : Prop := p.user < q.user ∨ (p.user = q.user ∧ p.name < q.name)

instance : LT Path := ⟨before⟩

instance : DecidableLT Path := fun p q =>
  inferInstanceAs (Decidable (p.user < q.user ∨ (p.user = q.user ∧ p.name < q.name)))

/-- The path as it is shown. -/
def render (p : Path) : String := privateNamespace ++ ":" ++ p.user ++ ":" ++ p.name

/-- Another mailbox of the same user. -/
def sibling (p : Path) (name : List Char) : Path := { p with name := String.ofList name }

/-- The last component of the name. -/
def leaf (p : Path) (d : Char) : String :=
  match Text.cutLast d p.name.toList with
  | some (_, last) => String.ofList last
  | none => p.name

/-- The mailbox that encloses this one: its name ends before the last delimiter. -/
def parent? (p : Path) (d : Char) : Option Path :=
  (Text.cutLast d p.name.toList).map fun (front, _) => p.sibling front

/-- The enclosing mailboxes, outermost first: one for each delimiter in the name. -/
def ancestors (p : Path) (d : Char) : List Path :=
  (Text.headsBefore d p.name.toList).map p.sibling

/-- The mailbox inside this one that has the given last component. -/
def child (p : Path) (leaf : String) (d : Char) : Path :=
  p.sibling (p.name.toList ++ d :: leaf.toList)

end Path

/-! ## Errors -/

/-- Why an operation on mailboxes failed. -/
inductive Error where
  | alreadyExists (path : String)
  | nameTooLong (name : String) (limit : Nat)
  | notFound (path : String)
  | invalidName (name : String) (reason : String)
  | store (message : String)
  | internal (message : String)
deriving DecidableEq, Repr

namespace Error

/-- The wording of a cause. -/
def message : Error → String
  | alreadyExists path => "mailbox " ++ path ++ " already exists"
  | nameTooLong name limit => "mailbox name '" ++ name ++ "' exceeds " ++ toString limit ++ " characters"
  | notFound path => "mailbox " ++ path ++ " not found"
  | invalidName name reason => "invalid mailbox name '" ++ name ++ "': " ++ reason
  | store message => "mailbox store failure: " ++ message
  | internal message => "internal store error: " ++ message

/-- The cause concerns mailboxes; only internal faults do not. -/
def isDomain : Error → Bool
  | internal _ => false
  | _ => true

end Error

/-! ## Names as clients write them

A client names a mailbox by the components of its path. One delimiter at the end is ignored, and a
first component that spells INBOX in any case means the inbox. -/

/-- Why a name, already without the delimiter at its end, cannot be a mailbox name. -/
def checkName (d : Char) : List Char → Option String
  | [] => some "name is empty"
  | '#' :: _ => some "only the private namespace is supported"
  | cs =>
    if (Text.pieces (· == d) cs).any (·.isEmpty) then some "hierarchy components must not be empty"
    else none

/-- The name with a first component that means the inbox in its canonical spelling. -/
def canonicalName (d : Char) (cs : List Char) : List Char :=
  match Text.cutFirst d cs with
  | some (first, rest) =>
    if Text.sameFolded (String.ofList first) inbox then inbox.toList ++ d :: rest else cs
  | none => if Text.sameFolded (String.ofList cs) inbox then inbox.toList else cs

/-- The path that a client's name stands for. -/
def resolve (caller : Caller) (name : String) : Except Error Path :=
  let cs := Text.dropOneLast caller.delimiter name.toList
  match checkName caller.delimiter cs with
  | some reason => .error (.invalidName name reason)
  | none => .ok ⟨caller.user, String.ofList (canonicalName caller.delimiter cs)⟩

end MailServer.Mailbox
