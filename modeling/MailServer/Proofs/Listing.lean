import Mathlib.Data.List.Nodup
import MailServer.Proofs.Calls
import MailServer.Proofs.Shown
import MailServer.Proofs.StoreRun

/-!
# Listings as forests

A listing shows every mailbox by the last component of its name, with the number of the mailbox
that encloses it. Going outwards from a mailbox and joining the components with the delimiter gives
its name back.

* `listed` — what is shown to a user who asks for all mailboxes; `process_getMailboxes_of_arguments` — the answer
  to a call, by what it asks for.
* `Chain` — the names met from a shown mailbox outwards.
* `exists_chain` — the chain that spells the name of the mailbox.
* `Chain.unique` — there is no other, if no two mailboxes are shown under one number; `nodup_ids` and
  `nodup_idTexts` say when that is so.
-/

namespace MailServer.Jmap

open Json (Value)
open Mailbox (Id Listing Path Store)
open Service (Backend)
open Service.Backend

/-- The mailboxes that are shown to a user who asks for all of them. -/
def listed (d : Char) (user : String) (s : Store) : List View :=
  (chooseViews d (s.list user) none).1

/-- A call is answered with the entries that it asks for, and with the ids that are nobody's. -/
theorem process_getMailboxes_of_arguments {v : Value} {ids : Option (List String)} (user : String) (d : Char)
    (b : Backend) (hv : listingArguments v = .ok ids) :
    attempt (getMailboxes.process v ⟨user, d⟩) b =
      (.ok (.object [("accountId", .string user),
        ("list", .array ((chooseViews d (b.store.list user) ids).1.map View.entry)),
        ("notFound", .array ((chooseViews d (b.store.list user) ids).2.map .string))]), b) := by
  have harguments : argumentsOf listingArguments v = .ok ids := by
    rw [argumentsOf, hv]
    rfl
  rw [process_getMailboxes, harguments, ← listingValue_eq]
  rfl

/-- A call without arguments is answered with an entry for each of them. -/
theorem process_getMailboxes_all (user : String) (d : Char) (b : Backend) :
    attempt (getMailboxes.process (.object []) ⟨user, d⟩) b =
      (.ok (.object [("accountId", .string user),
        ("list", .array ((listed d user b.store).map View.entry)), ("notFound", .array [])]), b) :=
  process_getMailboxes_of_arguments user d b (show listingArguments (.object []) = .ok none from rfl)

theorem mem_listed_iff {d : Char} {user : String} {s : Store} {v : View} :
    v ∈ listed d user s ↔ ∃ m ∈ s.list user, View.ofListing d (s.list user) m = v := List.mem_map

/-! ## Going outwards -/

/-- The names met from a shown mailbox outwards, the outermost first. -/
inductive Chain (views : List View) : View → List String → Prop where
  | top {v : View} (h : v.parent = none) : Chain views v [v.name]
  | inside {v w : View} {names : List String} (hw : w ∈ views) (h : v.parent = some w.id)
      (hchain : Chain views w names) : Chain views v (names ++ [v.name])

theorem Chain.ne_nil {views : List View} {v : View} {names : List String} (h : Chain views v names) :
    names ≠ [] := by
  cases h <;> simp

/-- Where numbers tell the shown mailboxes apart, a mailbox has one chain. Induction on the first
chain. -/
theorem Chain.unique {views : List View} (hids : (views.map (·.id)).Nodup) {v : View}
    {names names' : List String} (h : Chain views v names) (h' : Chain views v names') : names = names' := by
  induction h generalizing names' with
  | top htop =>
    cases h' with
    | top => rfl
    | inside hw hparent => cases htop.symm.trans hparent
  | inside hw hparent hchain ih =>
    cases h' with
    | top htop => cases htop.symm.trans hparent
    | inside hw' hparent' hchain' =>
      have hid := Option.some.inj (hparent.symm.trans hparent')
      have hsame := List.inj_on_of_nodup_map hids hw hw' hid
      subst hsame
      rw [ih hchain']

/-! ## The listing of a sound store -/

section Sound

variable {d : Char} {user : String} {s : Store} (h : Store.Sound s)
include h

/-- The number under which a listed path is found is the one that it is listed under. -/
theorem idAt?_of_mem {m : Listing} (hm : m ∈ s.list user) :
    idAt? (s.list user) m.path = some m.id := by
  unfold idAt?
  cases hfind : (s.list user).reverse.find? fun n => n.path = m.path with
  | none =>
    have hnone := List.find?_eq_none.mp hfind m (List.mem_reverse.mpr hm)
    simp at hnone
  | some n =>
    have hn := List.mem_reverse.mp (List.mem_of_find?_eq_some hfind)
    have hpath : n.path = m.path := by simpa using List.find?_some hfind
    rw [h.eq_of_mem_list hn hm hpath]
    rfl

/-- The mailbox that encloses a listed one is listed. -/
theorem mem_list_of_parent? (hd : s.delimiter = d) {m : Listing} (hm : m ∈ s.list user) {q : Path}
    (hq : m.path.parent? d = some q) : ∃ n ∈ s.list user, n.path = q := by
  have hancestor := Path.mem_ancestors_of_parent? hq
  obtain ⟨huser, -⟩ := h.mem_list_iff.mp hm
  have hthere : s.contains q = true :=
    h.enclosed m.path (Store.contains_of_mem_list hm) q (hd ▸ hancestor)
  obtain ⟨e, he⟩ := Store.contains_iff.mp hthere
  refine ⟨⟨e.id, q, e.messages⟩, h.mem_list_iff.mpr ⟨?_, e, he, rfl⟩, rfl⟩
  exact (Path.user_of_mem_ancestors hancestor).trans huser

/-- **Names come back.** From every listed mailbox a chain leads outwards, and its names joined by
the delimiter are the name of the mailbox. Induction on the length of the name, which is longer
than that of the enclosing mailbox. -/
theorem exists_chain (hd : s.delimiter = d) {m : Listing} (hm : m ∈ s.list user) :
    ∃ names, Chain (listed d user s) (View.ofListing d (s.list user) m) names ∧
      (String.singleton d).intercalate names = m.path.name := by
  induction hlength : m.path.name.length using Nat.strongRecOn generalizing m with
  | ind n ih =>
    obtain ⟨hnone, hleaf⟩ | ⟨q, hq, -, hname⟩ := m.path.parent?_cases d
    · refine ⟨[m.path.leaf d], .top ?_, ?_⟩
      · show (m.path.parent? d).bind _ = none
        rw [hnone]
        rfl
      · rw [String.intercalate_singleton, hleaf]
    · obtain ⟨outer, houter, rfl⟩ := mem_list_of_parent? h hd hm hq
      -- the enclosing mailbox is listed too, and its chain is there by induction
      have hshorter : outer.path.name.length < n :=
        hlength ▸ Path.length_lt_of_mem_ancestors (Path.mem_ancestors_of_parent? hq)
      obtain ⟨names, hchain, hnames⟩ := ih _ hshorter houter rfl
      refine ⟨names ++ [m.path.leaf d], .inside (mem_listed_iff.mpr ⟨outer, houter, rfl⟩) ?_ hchain, ?_⟩
      · show (m.path.parent? d).bind _ = some outer.id
        rw [hq]
        exact idAt?_of_mem h houter
      · rw [String.intercalate_append_of_ne_nil hchain.ne_nil (by simp), hnames,
          String.intercalate_singleton, ← String.toList_inj, hname]
        simp

/-- With fewer than `2 ^ 32` mailboxes in the store, no two are shown under one number. -/
theorem nodup_ids (hfew : s.entries.length < 2 ^ 32) : ((listed d user s).map (·.id)).Nodup := by
  have hshown : (listed d user s).map (·.id) =
      (s.entries.filter fun entry => entry.1.user == user).map (·.2.id) := by
    show ((s.list user).map (View.ofListing d (s.list user))).map (·.id) = _
    rw [Store.list, List.map_map, List.map_map]
    rfl
  rw [hshown]
  exact (h.nodup_ids hfew).sublist (List.filter_sublist.map _)

/-- Nor are the texts of two numbers the same. -/
theorem nodup_idTexts (hfew : s.entries.length < 2 ^ 32) :
    ((listed d user s).map fun v => toString v.id.number.toNat).Nodup := by
  have htexts : (listed d user s).map (fun v => toString v.id.number.toNat) =
      ((listed d user s).map (·.id)).map Id.render := by
    rw [List.map_map]
    rfl
  rw [htexts]
  exact (nodup_ids h hfew).map fun _ _ => Id.render_injective

end Sound

end MailServer.Jmap
