import MailServer.Proofs.Listing

/-!
# The order of a listing

A listing is in the order of the full names, which is the order of their bytes. A name comes behind each
of its beginnings, so a mailbox is shown behind the one that encloses it, and a listing can be read from
its beginning: every number of an enclosing mailbox has been met before.

* `pairwise_list` — the names of a listing are in strictly increasing order.
* `Placed` — what a listing shows under one name, with all that is shown before it.
* `placed_listed` — each place of the listing of a sound store.
* `listing_is_forest` — the listing after any run of a store.
-/

namespace MailServer.Mailbox

/-- A name comes behind the names of the enclosing mailboxes. -/
theorem Path.name_lt_of_mem_ancestors {p a : Path} {d : Char} (h : a ∈ p.ancestors d) : a.name < p.name := by
  obtain ⟨-, t, ht⟩ := Path.mem_ancestors_iff.mp h
  have hbehind : a.name.toList ++ [] < a.name.toList ++ d :: t := List.append_left_lt (List.nil_lt_cons d t)
  rw [String.lt_iff_toList_lt, ht]
  simpa using hbehind

/-- A path has no parent where its name has no delimiter. -/
theorem Path.parent?_eq_none_iff {p : Path} {d : Char} : p.parent? d = none ↔ d ∉ p.name.toList := by
  rw [Path.parent?, Option.map_eq_none_iff, Text.cutLast_eq_none_iff]

/-- The mailboxes of a user are listed in the order of their names. -/
theorem Store.Sound.pairwise_list {s : Store} (h : Sound s) (user : String) :
    (s.list user).Pairwise fun m n => m.path.name < n.path.name := by
  rw [Store.list, List.pairwise_map]
  refine List.Pairwise.imp_of_mem ?_ (h.sorted.filter _)
  intro x y hx hy hlt
  have hx : x.1.user = user := by simpa using (List.mem_filter.mp hx).2
  have hy : y.1.user = user := by simpa using (List.mem_filter.mp hy).2
  -- within one user only the names count
  rcases Path.lt_iff.mp hlt with huser | ⟨-, hname⟩
  · rw [hx, hy] at huser
    exact absurd huser (lt_irrefl user)
  · exact hname

end MailServer.Mailbox

namespace MailServer.Jmap

open Mailbox (Listing Path Store)
open Service.Backend

/-- What stands at the place `k` of a listing, under the name `name`: a mailbox of the user with its number
and its messages, at the top where the name has no delimiter, and else inside one that is shown before it.
A chain leads outwards from it, whose names make up the name. -/
structure Placed (d : Char) (user : String) (s : Store) (views : List View) (k : Nat) (name : String)
    (v : View) : Prop where
  entry : ∃ e, s.entryAt? ⟨user, name⟩ = some e ∧ v.id = e.id ∧ v.messages = e.messages
  top : v.parent = none ↔ d ∉ name.toList
  inside : ∀ id, v.parent = some id → ∃ j < k, (views[j]?).map (·.id) = some id
  spelled : ∃ names, Chain views v names ∧ (String.singleton d).intercalate names = name

section Sound

variable {d : Char} {user : String} {s : Store} (h : Store.Sound s)
include h

/-- In a listing a smaller name comes first. -/
theorem index_lt_of_name_lt {j k : Nat} {m n : Listing} (hj : (s.list user)[j]? = some m)
    (hk : (s.list user)[k]? = some n) (hlt : m.path.name < n.path.name) : j < k := by
  obtain ⟨hj', rfl⟩ := List.getElem?_eq_some_iff.mp hj
  obtain ⟨hk', rfl⟩ := List.getElem?_eq_some_iff.mp hk
  by_contra hle
  rcases Nat.lt_or_eq_of_le (not_lt.mp hle) with hkj | rfl
  · have hgt := List.pairwise_iff_getElem.mp (h.pairwise_list user) k j hk' hj' hkj
    exact lt_asymm hlt hgt
  · exact lt_irrefl _ hlt

/-- The mailbox that encloses a listed one is listed before it. -/
theorem exists_index_of_parent? (hd : s.delimiter = d) {k : Nat} {m : Listing}
    (hk : (s.list user)[k]? = some m) {q : Path} (hq : m.path.parent? d = some q) :
    ∃ j < k, ∃ n, (s.list user)[j]? = some n ∧ n.path = q := by
  obtain ⟨n, hn, rfl⟩ := mem_list_of_parent? h hd (List.mem_of_getElem? hk) hq
  obtain ⟨j, hj⟩ := List.getElem?_of_mem hn
  have hlt := Path.name_lt_of_mem_ancestors (Path.mem_ancestors_of_parent? hq)
  exact ⟨j, index_lt_of_name_lt h hj hk hlt, n, hj, rfl⟩

/-- **Each place of a listing** has the mailbox of its name. -/
theorem placed_listed (hd : s.delimiter = d) {k : Nat} {m : Listing} (hk : (s.list user)[k]? = some m) :
    Placed d user s (listed d user s) k m.path.name (View.ofListing d (s.list user) m) := by
  have hmem : m ∈ s.list user := List.mem_of_getElem? hk
  obtain ⟨huser, e, he, hm⟩ := h.mem_list_iff.mp hmem
  have hpath : (⟨user, m.path.name⟩ : Path) = m.path := by rw [← huser]
  have hparent : (View.ofListing d (s.list user) m).parent =
      (m.path.parent? d).bind (idAt? (s.list user)) := rfl
  refine ⟨⟨e, hpath ▸ he, congrArg Listing.id hm, congrArg Listing.messages hm⟩, ?_, ?_,
    exists_chain h hd hmem⟩
  · rw [hparent, ← Path.parent?_eq_none_iff]
    cases hq : m.path.parent? d with
    | none => exact ⟨fun _ => rfl, fun _ => rfl⟩
    | some q =>
      obtain ⟨n, hn, rfl⟩ := mem_list_of_parent? h hd hmem hq
      rw [Option.bind_some, idAt?_of_mem h hn]
      exact ⟨nofun, nofun⟩
  · intro id hid
    rw [hparent] at hid
    obtain ⟨q, hq, hshown⟩ := Option.bind_eq_some_iff.mp hid
    obtain ⟨j, hjk, n, hj, rfl⟩ := exists_index_of_parent? h hd hk hq
    rw [idAt?_of_mem h (List.mem_of_getElem? hj)] at hshown
    refine ⟨j, hjk, ?_⟩
    show (((s.list user).map _)[j]?).map _ = _
    rw [List.getElem?_map, hj]
    exact hshown

end Sound

/-- **A listing is a forest**, after any run of creations and deliveries, for names of any shape. The
mailboxes of the user are shown, each by one entry, in strictly increasing order of the bytes of their names.
At the place of a name stands its mailbox; it is shown without a parent just where the name has no delimiter,
and else with the number of one that stands before it. Going outwards ends, and the names met, joined by the
delimiter, are the name. As long as there are fewer than `2 ^ 32` mailboxes, no two are shown under one
number, and there is only one way outwards. -/
theorem listing_is_forest (limit : Nat) (d : Char) (ops : List Store.Operation) (user : String)
    (registry : Account.Registry) :
    let s := Store.run ops (.empty limit d)
    ∃ (views : List View) (names : List String),
      attempt (getMailboxes.process (.object []) ⟨user, d⟩) ⟨s, registry⟩ =
        (.ok (.object [("accountId", .string user), ("list", .array (views.map View.entry)),
          ("notFound", .array [])]), ⟨s, registry⟩) ∧
      views.length = names.length ∧
      (∀ name, name ∈ names ↔ s.contains ⟨user, name⟩ = true) ∧
      (names.map Text.utf8).Pairwise (· < ·) ∧
      (∀ k name v, names[k]? = some name → views[k]? = some v → Placed d user s views k name v) ∧
      (s.entries.length < 2 ^ 32 → (views.map fun v => toString v.id.number.toNat).Nodup ∧
        ∀ v met met', Chain views v met → Chain views v met' → met' = met) := by
  intro s
  have hsound : Store.Sound s := Store.sound_run (Store.Sound.empty limit d) ops
  have hd : s.delimiter = d := (Store.keeps_run (.empty limit d) ops).delimiter
  refine ⟨listed d user s, (s.list user).map (·.path.name), process_getMailboxes_all user d ⟨s, registry⟩,
    ?_, ?_, ?_, ?_, ?_⟩
  · exact (List.length_map _).trans (List.length_map _).symm
  · intro name
    rw [List.mem_map]
    constructor
    · rintro ⟨m, hm, rfl⟩
      obtain ⟨huser, -⟩ := hsound.mem_list_iff.mp hm
      rw [← huser]
      exact Store.contains_of_mem_list hm
    · intro hthere
      obtain ⟨e, he⟩ := Store.contains_iff.mp hthere
      exact ⟨⟨e.id, ⟨user, name⟩, e.messages⟩, hsound.mem_list_iff.mpr ⟨rfl, e, he, rfl⟩, rfl⟩
  · rw [List.pairwise_map, List.pairwise_map]
    exact (hsound.pairwise_list user).imp Text.utf8_lt_utf8_iff.mpr
  · intro k name v hname hv
    rw [List.getElem?_map] at hname
    obtain ⟨m, hm, rfl⟩ := Option.map_eq_some_iff.mp hname
    have hview : (listed d user s)[k]? = some (View.ofListing d (s.list user) m) := by
      show ((s.list user).map _)[k]? = _
      rw [List.getElem?_map, hm]
      rfl
    obtain rfl := Option.some.inj (hview.symm.trans hv)
    exact placed_listed hsound hd hm
  · intro hfew
    have hids : ((listed d user s).map (·.id)).Nodup := nodup_ids hsound hfew
    exact ⟨nodup_idTexts hsound hfew, fun v met met' h h' => h'.unique hids h⟩

/-- Two levels under an empty name, one mailbox beside them, and a mailbox of somebody else: the names are
in order, and each is shown inside the one before it or at the top. -/
example :
    let s := Store.run [.create ⟨"ann", ".a."⟩, .create ⟨"ann", "Z"⟩, .create ⟨"bob", "b"⟩] (.empty 255 '.')
    (listed '.' "ann" s).map (fun v => (v.name, v.parent.map (·.number), v.id.number)) =
      [("", none, 1), ("a", some 1, 2), ("", some 2, 3), ("Z", none, 4)] := by
  decide +kernel

end MailServer.Jmap
