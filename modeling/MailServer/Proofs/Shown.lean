import MailServer.Jmap.Creation
import MailServer.Proofs.Command
import MailServer.Proofs.Keyed
import MailServer.Proofs.Utf8

/-!
# What a client is shown

The answers of the two protocols as they leave the server. A method is answered with an object, whose
members come in the order of their names; a `SELECT` is answered with six lines.

* `Jmap.View.entry` — a mailbox in a listing, and `listingValue_eq` the answer to a listing.
* `Jmap.creationValue_members`, `creationValue_eq` — the answer to a call that creates mailboxes, from the
  outcomes of its creations.
* `Imap.openingText` — the lines of a `SELECT` that succeeds; `render_opened` and `validity_of_openingText`.
-/

namespace MailServer.Mailbox

/-- The text of a number tells it. -/
theorem Id.render_injective {a b : Id} (h : a.render = b.render) : a = b :=
  congrArg Id.mk (UInt32.toNat_inj.mp (Text.toString_injective h))

end MailServer.Mailbox

namespace MailServer.Jmap

open Json (Value)
open Mailbox (Id)

/-! ## Listings -/

/-- A mailbox in a listing: an object of five members. There is no text for a parent or a role that a
mailbox does not have. -/
def View.entry (v : View) : Value := .object [
  ("id", .string (toString v.id.number.toNat)),
  ("name", .string v.name),
  ("parentId", (v.parent.map fun id => toString id.number.toNat).elim .null .string),
  ("role", v.role.elim .null .string),
  ("totalMessages", .number (.natural v.messages.toUInt64))]

theorem ofText?_eq (text : Option String) : Value.ofText? text = text.elim .null .string := by
  cases text <;> rfl

theorem View.toValue_eq (v : View) : v.toValue = v.entry := by
  unfold toValue entry
  rw [ofText?_eq, ofText?_eq]
  refine congrArg Value.object (Keyed.ofList_of_sorted ?_)
  simp only [Keyed.Sorted, List.pairwise_cons, List.forall_mem_cons]
  decide

/-- **The answer to a listing** is an object of the user, the entries and the ids that were not found. -/
theorem listingValue_eq (user : String) (views : List View) (notFound : List String) :
    listingValue user views notFound = .object [("accountId", .string user),
      ("list", .array (views.map View.entry)), ("notFound", .array (notFound.map .string))] := by
  rw [listingValue, List.map_congr_left fun v _ => View.toValue_eq v]
  refine congrArg Value.object (Keyed.ofList_of_sorted ?_)
  simp only [Keyed.Sorted, List.pairwise_cons, List.forall_mem_cons]
  decide

/-! ## Creations -/

section Creations

variable {outcomes : List (String × Outcome)}

/-- The outcomes of one kind as the members of an object. -/
def membersOf (keep : Outcome → Bool) (outcomes : List (String × Outcome)) : List (String × Value) :=
  (outcomes.filter (keep ·.2)).map fun (id, o) => (id, o.toValue)

/-- The object of a creation that was not done. -/
def refusal (type text : String) : Value := .object [("description", .string text), ("type", .string type)]

theorem toValue_created (id : Id) :
    (Outcome.created id).toValue = .object [("id", .string (toString id.number.toNat))] := rfl

theorem toValue_notCreated (type text : String) : (Outcome.notCreated type text).toValue = refusal type text := by
  have hbefore : "description" < "type" := by decide
  simp [Outcome.toValue, refusal, Value.ofMembers, Keyed.ofList, Keyed.insert, hbefore]

theorem membersOf_notCreated (key type text : String) :
    membersOf (!·.isCreated) [(key, .notCreated type text)] = [(key, refusal type text)] :=
  congrArg (fun v => [(key, v)]) (toValue_notCreated type text)

theorem mem_membersOf {keep : Outcome → Bool} {key : String} {v : Value} :
    (key, v) ∈ membersOf keep outcomes ↔ ∃ o, (key, o) ∈ outcomes ∧ keep o = true ∧ o.toValue = v := by
  simp [membersOf, and_assoc]

theorem membersOf_eq_nil_iff {keep : Outcome → Bool} :
    membersOf keep outcomes = [] ↔ ∀ o ∈ outcomes, keep o.2 = false := by
  simp [membersOf]

theorem sorted_membersOf (h : Keyed.Sorted outcomes) (keep : Outcome → Bool) :
    Keyed.Sorted (membersOf keep outcomes) := List.pairwise_map.mpr (h.filter _)

/-- **The answer to a call that creates mailboxes** has the outcomes of both kinds in the order of their
ids. -/
theorem creationValue_members (user : String) (outcomes : List (String × Outcome)) :
    creationValue user outcomes = .object [("accountId", .string user),
      ("created", .object (Keyed.ofList (membersOf (·.isCreated) outcomes))),
      ("notCreated", .object (Keyed.ofList (membersOf (!·.isCreated) outcomes)))] := by
  refine congrArg Value.object (Keyed.ofList_of_sorted ?_)
  simp only [Keyed.Sorted, List.pairwise_cons, List.forall_mem_cons]
  decide

/-- Where the ids are in order, the answer shows every outcome under its id, among those that were created
or those that were not. -/
theorem creationValue_eq (user : String) (h : Keyed.Sorted outcomes) : creationValue user outcomes =
    .object [("accountId", .string user), ("created", .object (membersOf (·.isCreated) outcomes)),
      ("notCreated", .object (membersOf (!·.isCreated) outcomes))] := by
  rw [creationValue_members, Keyed.ofList_of_sorted (sorted_membersOf h _),
    Keyed.ofList_of_sorted (sorted_membersOf h _)]

end Creations

end MailServer.Jmap

namespace MailServer.Imap

/-! ## Selections -/

/-- The lines of a `SELECT` that succeeds, without their line ends: the flags, the number of messages, that
none is recent, the validity value and the next message number, and that the command is done. -/
def openingText (tag : String) (messages validity next : Nat) : List String := [
  "* FLAGS (\\Answered \\Flagged \\Deleted \\Seen \\Draft)",
  "* " ++ toString messages ++ " EXISTS",
  "* 0 RECENT",
  "* OK [UIDVALIDITY " ++ toString validity ++ "] UIDs valid",
  "* OK [UIDNEXT " ++ toString next ++ "] Predicted next UID",
  tag ++ " OK [READ-WRITE] SELECT completed."]

theorem render_opened (tag : String) (status : Mailbox.Status) :
    (opened tag status).map Response.render =
      openingText tag status.messages.toNat status.uidValidity.toNat status.uidNext.toNat := by
  have hnone : Nat.repr 0 = "0" := rfl
  have hvalidity : ∀ text, "* OK " ++ ("[UIDVALIDITY " ++ text) = "* OK [UIDVALIDITY " ++ text :=
    fun _ => String.append_assoc.symm
  have hnext : ∀ text, "* OK " ++ ("[UIDNEXT " ++ text) = "* OK [UIDNEXT " ++ text :=
    fun _ => String.append_assoc.symm
  simp [opened, openingLines, openingText, Response.render, Code.render, Tagged.render, Tagged.completed,
    Tagged.codePart, Status.name, Reason.text, systemFlags, decimal, String.append_assoc, hnone, hvalidity,
    hnext]

/-- The lines tell the validity value. -/
theorem validity_of_openingText {tag : String} {messages validity next messages' validity' next' : Nat}
    (h : openingText tag messages validity next = openingText tag messages' validity' next') :
    validity = validity' := by
  simp only [openingText, List.cons.injEq] at h
  obtain ⟨-, -, -, hvalidity, -⟩ := h
  have hdigits := congrArg String.toList hvalidity
  simp only [String.toList_append, List.append_cancel_left_eq, List.append_cancel_right_eq] at hdigits
  exact Text.toString_injective (String.toList_inj.mp hdigits)

end MailServer.Imap
