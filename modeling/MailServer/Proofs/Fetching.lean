import MailServer.Proofs.Listing

/-!
# Asking for mailboxes by their ids

A call may ask for all mailboxes or for those with certain ids. Both show a mailbox in the same way, so what
is shown for ids can be taken from the listing of all.

* `Fetched` — the answer to a list of ids, as it is taken from a listing.
* `Fetched.unique` — there is one such answer where no two mailboxes have one id; `fetched_all` is the answer
  to the ids of the listing itself.
* `fetched_chooseViews` — what is chosen from the mailboxes of a user is such an answer.
* `fetching_agrees_with_listing` — the two calls on any state of a store.
-/

namespace MailServer.Jmap

open Json (Value)
open Mailbox (Listing Store)
open Service (Backend)
open Service.Backend

/-! ## Taking mailboxes from a listing -/

/-- The answer to ids, from the listing `full`: an id stands for a mailbox that is shown under it, and one
under which none is shown is not found. -/
inductive Fetched (full : List View) : List String → List View → List String → Prop
  | nil : Fetched full [] [] []
  | found {id : String} {ids : List String} {v : View} {views : List View} {notFound : List String}
      (hv : v ∈ full) (hid : toString v.id.number.toNat = id) (rest : Fetched full ids views notFound) :
      Fetched full (id :: ids) (v :: views) notFound
  | missing {id : String} {ids : List String} {views : List View} {notFound : List String}
      (h : ∀ v ∈ full, toString v.id.number.toNat ≠ id) (rest : Fetched full ids views notFound) :
      Fetched full (id :: ids) views (id :: notFound)

namespace Fetched

variable {full views views' : List View} {ids notFound notFound' : List String}

theorem length_add (h : Fetched full ids views notFound) : views.length + notFound.length = ids.length := by
  induction h with
  | nil => rfl
  | found _ _ _ ih =>
    rw [List.length_cons, List.length_cons, ← ih]
    omega
  | missing _ _ ih =>
    rw [List.length_cons, List.length_cons, ← ih]
    omega

theorem subset (h : Fetched full ids views notFound) : views ⊆ full := by
  induction h with
  | nil => exact List.nil_subset full
  | found hv _ _ ih => exact List.cons_subset.mpr ⟨hv, ih⟩
  | missing _ _ ih => exact ih

theorem unique (hids : (full.map fun v => toString v.id.number.toNat).Nodup) (h : Fetched full ids views notFound)
    (h' : Fetched full ids views' notFound') : views = views' ∧ notFound = notFound' := by
  -- by induction on one of the answers; the other one cannot have gone another way at any id
  induction h generalizing views' notFound' with
  | nil =>
    cases h'
    exact ⟨rfl, rfl⟩
  | found hv hid _ ih =>
    cases h' with
    | found hv' hid' rest' =>
      obtain rfl := List.inj_on_of_nodup_map hids hv hv' (hid.trans hid'.symm)
      obtain ⟨rfl, rfl⟩ := ih rest'
      exact ⟨rfl, rfl⟩
    | missing hnone => exact absurd hid (hnone _ hv)
  | missing hnone _ ih =>
    cases h' with
    | found hv' hid' => exact absurd hid' (hnone _ hv')
    | missing _ rest' =>
      obtain ⟨rfl, rfl⟩ := ih rest'
      exact ⟨rfl, rfl⟩

end Fetched

theorem fetched_all {full views : List View} (h : views ⊆ full) :
    Fetched full (views.map fun v => toString v.id.number.toNat) views [] := by
  induction views with
  | nil => exact .nil
  | cons v views ih =>
    obtain ⟨hv, hviews⟩ := List.cons_subset.mp h
    exact .found hv rfl (ih hviews)

/-! ## What is chosen -/

theorem fetched_chooseViews (d : Char) (mailboxes : List Listing) (ids : List String) :
    Fetched (chooseViews d mailboxes none).1 ids (chooseViews d mailboxes (some ids)).1
      (chooseViews d mailboxes (some ids)).2 := by
  unfold chooseViews
  dsimp only
  induction ids with
  | nil => exact .nil
  | cons id ids ih =>
    rw [List.filterMap_cons]
    cases hfind : findById? mailboxes id with
    | some m =>
      have hid : m.id.render = id := by simpa using List.find?_some hfind
      rw [List.filter_cons_of_neg (by simp [hfind])]
      exact .found (List.mem_map_of_mem (List.mem_of_find?_eq_some hfind)) hid ih
    | none =>
      rw [List.filter_cons_of_pos (by simp [hfind])]
      refine .missing ?_ ih
      intro v hv hid
      obtain ⟨m, hm, rfl⟩ := List.mem_map.mp hv
      exact List.find?_eq_none.mp hfind m hm (beq_iff_eq.mpr hid)

/-- **Asking for ids agrees with listing all**, in every state that creations and deliveries lead to from an
empty store, for every user and every delimiter of the session. A call that asks for ids is answered, id by
id and in their order, with the entries that the listing of all shows; the ids under which it shows none are
listed as not found, in the same order. So each id that is asked for counts once. As long as there are fewer
than `2 ^ 32` mailboxes, no two are shown under one id, so that this is the only such answer; and a call that
asks for all ids of the listing is answered like the one that asks for all mailboxes. -/
theorem fetching_agrees_with_listing (limit : Nat) (delimiter : Char) (ops : List Store.Operation)
    (registry : Account.Registry) (user : String) (d : Char) :
    let b : Backend := ⟨Store.run ops (.empty limit delimiter), registry⟩
    let full := listed d user b.store
    (∀ v, listingArguments v = .ok none →
      attempt (getMailboxes.process v ⟨user, d⟩) b =
        (.ok (.object [("accountId", .string user), ("list", .array (full.map View.entry)),
          ("notFound", .array [])]), b)) ∧
    (∀ v ids, listingArguments v = .ok (some ids) → ∃ views notFound,
      attempt (getMailboxes.process v ⟨user, d⟩) b =
        (.ok (.object [("accountId", .string user), ("list", .array (views.map View.entry)),
          ("notFound", .array (notFound.map .string))]), b) ∧
      Fetched full ids views notFound ∧ views ⊆ full ∧ views.length + notFound.length = ids.length) ∧
    (b.store.entries.length < 2 ^ 32 →
      (full.map fun v => toString v.id.number.toNat).Nodup ∧
      (∀ ids views views' notFound notFound', Fetched full ids views notFound →
        Fetched full ids views' notFound' → views = views' ∧ notFound = notFound') ∧
      ∀ v, listingArguments v = .ok (some (full.map fun v => toString v.id.number.toNat)) →
        attempt (getMailboxes.process v ⟨user, d⟩) b =
          (.ok (.object [("accountId", .string user), ("list", .array (full.map View.entry)),
            ("notFound", .array [])]), b)) := by
  intro b full
  have hsound : Store.Sound b.store := Store.sound_run (Store.Sound.empty limit delimiter) ops
  refine ⟨?_, ?_, ?_⟩
  · exact fun v hv => process_getMailboxes_of_arguments user d b hv
  · intro v ids hv
    have hfetched := fetched_chooseViews d (b.store.list user) ids
    exact ⟨_, _, process_getMailboxes_of_arguments user d b hv, hfetched, hfetched.subset, hfetched.length_add⟩
  · intro hfew
    have hids : (full.map fun v => toString v.id.number.toNat).Nodup := nodup_idTexts hsound hfew
    refine ⟨hids, fun ids views views' notFound notFound' h h' => h.unique hids h', fun v hv => ?_⟩
    have hfetched := fetched_chooseViews d (b.store.list user) (full.map fun v => toString v.id.number.toNat)
    obtain ⟨hviews, hnone⟩ := hfetched.unique hids (fetched_all (List.Subset.refl _))
    rw [process_getMailboxes_of_arguments user d b hv, hviews, hnone]
    rfl

/-- Ids in another order and one of them twice, one with a zero in front, and one of another user's mailbox. -/
theorem fetching_agrees_with_listing_mixed_ids :
    let ops : List Store.Operation :=
      [.create ⟨"ann", "Work.Q1"⟩, .create ⟨"bob", "Work"⟩, .deliver ⟨"ann", "Work"⟩]
    let b : Backend := ⟨Store.run ops (.empty 255 '.'), .empty⟩
    let ask (ids : List String) : Value := .object [("ids", .array (ids.map .string))]
    let answer (entries : List Value) (notFound : List String) : Value := .object [
      ("accountId", .string "ann"), ("list", .array entries), ("notFound", .array (notFound.map .string))]
    let work : Value := .object [("id", .string "1"), ("name", .string "Work"), ("parentId", .null),
      ("role", .null), ("totalMessages", .number (.natural 1))]
    let quarter : Value := .object [("id", .string "2"), ("name", .string "Q1"), ("parentId", .string "1"),
      ("role", .null), ("totalMessages", .number (.natural 0))]
    listingArguments (.object []) = .ok none ∧
    listingArguments (ask ["2", "3", "02", "2", "1"]) = .ok (some ["2", "3", "02", "2", "1"]) ∧
    listingArguments (ask ["1", "2"]) = .ok (some ["1", "2"]) ∧ b.store.entries.length < 2 ^ 32 ∧
    attempt (getMailboxes.process (.object []) ⟨"ann", '.'⟩) b = (.ok (answer [work, quarter] []), b) ∧
    attempt (getMailboxes.process (ask ["2", "3", "02", "2", "1"]) ⟨"ann", '.'⟩) b =
      (.ok (answer [quarter, quarter, work] ["3", "02"]), b) ∧
    attempt (getMailboxes.process (ask ["1", "2"]) ⟨"ann", '.'⟩) b = (.ok (answer [work, quarter] []), b) := by
  intro ops b ask answer work quarter
  have hall : listingArguments (.object []) = .ok none := rfl
  have hmixed : listingArguments (ask ["2", "3", "02", "2", "1"]) = .ok (some ["2", "3", "02", "2", "1"]) := rfl
  have hboth : listingArguments (ask ["1", "2"]) = .ok (some ["1", "2"]) := rfl
  have hfew : b.store.entries.length < 2 ^ 32 := by decide +kernel
  have hlisted : listed '.' "ann" b.store = [⟨⟨1⟩, "Work", none, none, 1⟩, ⟨⟨2⟩, "Q1", some ⟨1⟩, none, 0⟩] := by
    decide +kernel
  obtain ⟨hfull, hfetch, hids⟩ := fetching_agrees_with_listing 255 '.' ops .empty "ann" '.'
  obtain ⟨-, hunique, hagain⟩ := hids hfew
  obtain ⟨views, notFound, hanswer, hfetched, -, -⟩ := hfetch _ _ hmixed
  have hexpected : Fetched (listed '.' "ann" b.store) ["2", "3", "02", "2", "1"]
      [⟨⟨2⟩, "Q1", some ⟨1⟩, none, 0⟩, ⟨⟨2⟩, "Q1", some ⟨1⟩, none, 0⟩, ⟨⟨1⟩, "Work", none, none, 1⟩]
      ["3", "02"] := by
    rw [hlisted]
    refine .found (by decide) (by decide) (.missing (by decide) (.missing (by decide) ?_))
    exact .found (by decide) (by decide) (.found (by decide) (by decide) .nil)
  obtain ⟨rfl, rfl⟩ := hunique _ _ _ _ _ hfetched hexpected
  have htexts : (listed '.' "ann" b.store).map (fun v => toString v.id.number.toNat) = ["1", "2"] := by
    rw [hlisted]
    decide
  have hreproduced := hagain (ask ["1", "2"]) (htexts ▸ hboth)
  have hanswered := hfull _ hall
  rw [hlisted] at hreproduced hanswered
  exact ⟨hall, hmixed, hboth, hfew, hanswered, hanswer, hreproduced⟩

end MailServer.Jmap
