import MailServer.Proofs.Listing
import MailServer.Proofs.World

/-!
# The two protocols show the same mailboxes

A mailbox is reached by `SELECT` under its full name, and shown by `getMailboxes` by its last
component and the number of the mailbox around it. In every state that a server can come to the two
agree: names have been resolved, or are made of resolved ones, so resolving them again leads back to
the mailbox.

* `opening` — the lines of a `SELECT` for a mailbox that the listing shows.
* `select_chain` — the names along a chain, joined, select the mailbox at its beginning.
* `listed_of_select` — what can be selected is listed.
* `select_agrees_with_listing` — both, in every state after a run.
-/

namespace MailServer.World

open Account (defaultMailboxes)
open Imap (Response Selection openingText selectLines)
open Jmap (Chain View listed)
open Mailbox (Entry Listing Path Store)
open Service (Backend)
open Service.Backend

/-- The lines that agree with a shown mailbox: as many messages, the number of the mailbox as validity value,
and one more than the messages as next message number. -/
def opening (tag : String) (v : View) : List String :=
  openingText tag v.messages.toNat v.id.number.toNat (v.messages.toNat + 1)

section State

variable {d : Char} {b : Backend} (hsound : Store.Sound b.store) (hnamed : Named d b.store)
variable (hcounted : ∀ p e, b.store.entryAt? p = some e → e.messages.toNat < 2 ^ 32 - 1)

include hsound hcounted in
/-- The lines about the status of a mailbox agree with what is shown of it. -/
theorem render_opened_of_entry {user : String} {m : Listing} {e : Entry} (tag : String)
    (he : b.store.entryAt? m.path = some e) (hm : m = ⟨e.id, m.path, e.messages⟩) :
    (Imap.opened tag ⟨e.messages, e.uidNext, e.id.number⟩).map Response.render =
      opening tag (View.ofListing d (b.store.list user) m) := by
  have hnext : e.uidNext.toNat = e.messages.toNat + 1 := by
    have hlt := hcounted m.path e he
    rw [hsound.counted m.path e he, UInt32.toNat_add, UInt32.toNat_one]
    omega
  rw [Imap.render_opened, hnext, hm]
  rfl

include hsound hnamed hcounted in
/-- Selecting the name of a listed mailbox reports what is shown of it. -/
theorem select_name {user : String} {m : Listing} (hm : m ∈ b.store.list user)
    (selected : Option Selection) (tag : String) :
    (selectLines tag m.path.name ⟨⟨user, d⟩, selected⟩ b).map Response.render =
      opening tag (View.ofListing d (b.store.list user) m) := by
  obtain ⟨huser, e, he, hlisting⟩ := hsound.mem_list_iff.mp hm
  have hcanonical := hnamed.canonical m.path (Store.contains_of_mem_list hm)
  have hpath : (⟨user, m.path.name⟩ : Path) = m.path := by rw [← huser]
  -- the name is its own resolution, so the command looks at the very entry that is listed
  have hresolve : Mailbox.resolve ⟨user, d⟩ m.path.name = .ok m.path :=
    (Mailbox.resolve_of_canonical user hcanonical).trans (congrArg Except.ok hpath)
  have hstatus : b.store.status m.path = .ok ⟨e.messages, e.uidNext, e.id.number⟩ := by
    rw [Store.status, he]
  rw [Imap.selectLines_eq, hresolve]
  dsimp only [Except.bind]
  rw [hstatus]
  exact render_opened_of_entry hsound hcounted tag he hlisting

include hsound hnamed hcounted in
/-- The names along a chain, joined, select the mailbox at its beginning. -/
theorem select_chain {user : String} {v : View} (hv : v ∈ listed d user b.store)
    (selected : Option Selection) (tag : String) :
    ∃ names, Chain (listed d user b.store) v names ∧
      (selectLines tag ((String.singleton d).intercalate names) ⟨⟨user, d⟩, selected⟩ b).map
        Response.render = opening tag v := by
  obtain ⟨m, hm, rfl⟩ := Jmap.mem_listed_iff.mp hv
  obtain ⟨names, hchain, hnames⟩ := Jmap.exists_chain hsound hnamed.delimiter hm
  refine ⟨names, hchain, ?_⟩
  rw [hnames]
  exact select_name hsound hnamed hcounted hm selected tag

include hsound hnamed hcounted in
/-- What can be selected is listed, and the names along a chain from it, joined, are the name that
the selection came to. -/
theorem listed_of_select {user name tag : String} {selected : Option Selection} {line : Imap.Tagged}
    (hline : .tagged line ∈ selectLines tag name ⟨⟨user, d⟩, selected⟩ b) (hok : line.status = .ok) :
    ∃ v ∈ listed d user b.store,
      (selectLines tag name ⟨⟨user, d⟩, selected⟩ b).map Response.render = opening tag v ∧
      ∃ names, Chain (listed d user b.store) v names ∧
        Mailbox.resolve ⟨user, d⟩ name = .ok ⟨user, (String.singleton d).intercalate names⟩ := by
  obtain ⟨path, status, hresolve, hstatus, hlines⟩ := Imap.selectLines_of_ok hline hok
  have huser : path.user = user := Mailbox.user_of_resolve hresolve
  rw [hlines]
  unfold Store.status at hstatus
  cases he : b.store.entryAt? path with
  | none =>
    rw [he] at hstatus
    cases hstatus
  | some e =>
    rw [he] at hstatus
    cases hstatus
    have hm : (⟨e.id, path, e.messages⟩ : Listing) ∈ b.store.list user :=
      hsound.mem_list_iff.mpr ⟨huser, e, he, rfl⟩
    obtain ⟨names, hchain, hnames⟩ := Jmap.exists_chain hsound hnamed.delimiter hm
    refine ⟨_, Jmap.mem_listed_iff.mpr ⟨_, hm, rfl⟩, render_opened_of_entry hsound hcounted tag he rfl,
      names, hchain, ?_⟩
    rw [hnames, hresolve, ← huser]

end State

/-- Where numbers tell the shown mailboxes apart, the lines agree with one of them. -/
theorem eq_of_opening {views : List View} (hids : (views.map (·.id)).Nodup) {tag : String} {v w : View}
    (hv : v ∈ views) (hw : w ∈ views) (h : opening tag w = opening tag v) : w = v := by
  have hnumber : w.id.number = v.id.number := UInt32.toNat_inj.mp (Imap.validity_of_openingText h)
  have hid : w.id = v.id := congrArg Mailbox.Id.mk hnumber
  exact List.inj_on_of_nodup_map hids hw hv hid

/-- The counters of a run in which few messages are delivered to each mailbox. -/
theorem counted_run {limit : Nat} {tokens : Http.Tokens} {events : List Event}
    (hfew : ∀ p, received tokens p events (.empty limit tokens.delimiter) < 2 ^ 32 - 1) (p : Path)
    (e : Entry) (he : (run tokens events (.empty limit tokens.delimiter)).store.entryAt? p = some e) :
    e.messages.toNat < 2 ^ 32 - 1 := by
  have hcount := messagesAt_run tokens events (.empty limit tokens.delimiter) p
  have hempty : (Backend.empty limit tokens.delimiter).store.messagesAt p = 0 := rfl
  rw [hempty, UInt32.zero_add] at hcount
  rw [Store.toNat_messages he hcount (hfew p)]
  exact hfew p

/-- **The two protocols show the same mailboxes**, in every state that requests, commands and
deliveries lead to from an empty store. From every mailbox that `getMailboxes` shows a chain leads
outwards, and its names joined by the delimiter are a name that `SELECT` answers with OK; what it
reports is what is shown. What `SELECT` answers with OK is shown in the same way, at the beginning of
a chain whose names make up the selected name. The chain and the shown mailbox are the only ones as
long as every mailbox has a number of its own, that is below `2 ^ 32` mailboxes. -/
theorem select_agrees_with_listing (limit : Nat) (tokens : Http.Tokens)
    (hd : ∀ name ∈ defaultMailboxes, tokens.delimiter ∉ name.toList) (events : List Event)
    (hfew : ∀ p, received tokens p events (.empty limit tokens.delimiter) < 2 ^ 32 - 1)
    (user : String) (selected : Option Selection) (tag : String) :
    let b := run tokens events (.empty limit tokens.delimiter)
    let views := listed tokens.delimiter user b.store
    let session : Imap.Session := ⟨⟨user, tokens.delimiter⟩, selected⟩
    let select (name : String) := selectLines tag name session b
    let report (v : View) : List String := [
      "* FLAGS (\\Answered \\Flagged \\Deleted \\Seen \\Draft)",
      "* " ++ toString v.messages.toNat ++ " EXISTS",
      "* 0 RECENT",
      "* OK [UIDVALIDITY " ++ toString v.id.number.toNat ++ "] UIDs valid",
      "* OK [UIDNEXT " ++ toString (v.messages.toNat + 1) ++ "] Predicted next UID",
      tag ++ " OK [READ-WRITE] SELECT completed."]
    attempt (Jmap.getMailboxes.process (.object []) ⟨user, tokens.delimiter⟩) b =
      (.ok (.object [("accountId", .string user), ("list", .array (views.map View.entry)),
        ("notFound", .array [])]), b) ∧
    (b.store.entries.length < 2 ^ 32 → (views.map (·.id)).Nodup) ∧
    (∀ v ∈ views, ∃ names, Chain views v names ∧
      (b.store.entries.length < 2 ^ 32 → ∀ names', Chain views v names' → names' = names) ∧
      (select ((String.singleton tokens.delimiter).intercalate names)).map Response.render = report v) ∧
    ∀ name line, .tagged line ∈ select name → line.status = .ok →
      ∃ v ∈ views, (select name).map Response.render = report v ∧
        (∃ names, Chain views v names ∧ Mailbox.resolve session.caller name =
          .ok ⟨user, (String.singleton tokens.delimiter).intercalate names⟩) ∧
        (b.store.entries.length < 2 ^ 32 →
          ∀ w ∈ views, (select name).map Response.render = report w → w = v) := by
  intro b views session select report
  have hsound : Store.Sound b.store := sound_run tokens (Store.Sound.empty limit _) events
  have hnamed : Named tokens.delimiter b.store := named_run hd events (Named.empty limit _)
  have hcounted := counted_run hfew
  have hids : b.store.entries.length < 2 ^ 32 → (views.map (·.id)).Nodup := Jmap.nodup_ids hsound
  refine ⟨Jmap.process_getMailboxes_all user tokens.delimiter b, hids, ?_, ?_⟩
  · intro v hv
    obtain ⟨names, hchain, hselect⟩ := select_chain hsound hnamed hcounted hv selected tag
    exact ⟨names, hchain, fun hlength names' h' => h'.unique (hids hlength) hchain, hselect⟩
  · intro name line hline hok
    obtain ⟨v, hv, hreport, hchain⟩ := listed_of_select hsound hnamed hcounted hline hok
    exact ⟨v, hv, hreport, hchain,
      fun hlength w hw h' => eq_of_opening (hids hlength) hv hw (h'.symm.trans hreport)⟩

/-- A mailbox inside the inbox, which is spelled its own way, and a message to the inbox. -/
theorem select_agrees_with_listing_inbox :
    let tokens := Http.Tokens.empty '.'
    let events : List Event :=
      [.command "ann" none ⟨"a1", .create, "inbox.Plans"⟩, .deliver ⟨"ann", "INBOX"⟩]
    let b := run tokens events (.empty 255 tokens.delimiter)
    let views := listed tokens.delimiter "ann" b.store
    (∀ name ∈ defaultMailboxes, tokens.delimiter ∉ name.toList) ∧
    (∀ p, received tokens p events (.empty 255 tokens.delimiter) < 2 ^ 32 - 1) ∧
    views = [⟨⟨1⟩, "INBOX", none, some "inbox", 1⟩, ⟨⟨2⟩, "Plans", some ⟨1⟩, none, 0⟩] ∧
    ∀ v ∈ views, ∃ names, Chain views v names ∧
      (selectLines "a2" ((String.singleton tokens.delimiter).intercalate names)
        ⟨⟨"ann", tokens.delimiter⟩, none⟩ b).map Response.render = opening "a2" v := by
  intro tokens events b views
  have hd : ∀ name ∈ defaultMailboxes, tokens.delimiter ∉ name.toList := by decide
  have hfew : ∀ p, received tokens p events (.empty 255 tokens.delimiter) < 2 ^ 32 - 1 := fun p =>
    (received_le_length tokens p events _).trans_lt (by decide)
  obtain ⟨-, -, hselect, -⟩ := select_agrees_with_listing 255 tokens hd events hfew "ann" none "a2"
  refine ⟨hd, hfew, by decide +kernel, fun v hv => ?_⟩
  obtain ⟨names, hchain, -, hreport⟩ := hselect v hv
  exact ⟨names, hchain, hreport⟩

end MailServer.World
