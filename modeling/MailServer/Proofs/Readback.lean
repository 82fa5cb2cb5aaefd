import MailServer.Proofs.Creating
import MailServer.Proofs.Numbering
import MailServer.Proofs.Reference

/-!
# What was set is what is got

A mailbox that a call has created is found under the id that the answer gives, at any later moment and
whatever has happened in between: the mailbox stays where it is, and so does the one that it was put into.
The listing takes the name apart at the delimiter at which the creation put it together.

* `Leads` — the states that come about from one, by scripts of calls and by deliveries.
* `shown_creation` — how a mailbox is shown that was created.
* `execute_setMailboxes`, `execute_getMailboxes_of_mem` — the answers to the two calls.
* `Fulfilled.entry_of_created`, `Fulfilled.key_of_created` — a number of an answer has its mailbox, and its
  creation.
* `created_is_listed` — a created mailbox is listed as it was asked for.
-/

namespace MailServer.Service.Backend

open Mailbox (Path Store)

/-- The second state can come about from the first: by scripts that are run to their end, which may be single
calls of several that take turns, and by deliveries. -/
inductive Leads : Backend → Backend → Prop
  | refl (b : Backend) : Leads b b
  | script {α : Type} {b t : Backend} (h : Leads b t) (x : Script α) : Leads b (outcome x t).2
  | deliver {b t : Backend} (h : Leads b t) (p : Path) : Leads b { t with store := (t.store.deliver p).2 }

theorem Leads.keeps {b t : Backend} (h : Leads b t) : Store.Keeps b.store t.store := by
  induction h with
  | refl b => exact Store.Keeps.refl _
  | script _ x ih =>
    exact outcome_keeps (P := fun t => Store.Keeps _ t.store) (fun c t ht => ht.trans (keeps_answer c t)) x ih
  | deliver _ p ih => exact ih.trans (Store.keeps_deliver _ p)

theorem Leads.sound {b t : Backend} (h : Leads b t) (hb : Store.Sound b.store) : Store.Sound t.store := by
  induction h with
  | refl => exact hb
  | script _ x ih =>
    exact outcome_keeps (P := fun t => Store.Sound t.store) (fun c _ ht => World.sound_answer ht c) x (ih hb)
  | deliver _ p ih => exact (ih hb).deliver p

end MailServer.Service.Backend

namespace MailServer.Jmap

open Json (Value)
open Mailbox (Id Listing Path Store inbox)
open Service (Backend Script)
open Service.Backend

/-! ## How a created mailbox is shown -/

/-- The name that a creation asks for: at the top the inbox has its own spelling. -/
def requestedName (c : Creation) : String :=
  if c.parentId = none ∧ Text.sameFolded c.name inbox = true then inbox else c.name

section Shown

variable {d : Char} {user : String} {s t : Store} {c : Creation} {p : Path}

/-- The mailbox at the path of a creation is shown by the name and the parent that were asked for, in every
store that has kept the mailboxes among which the parent was found. -/
theorem shown_creation (h : Resolves d user s c p) (hs : Store.Sound s) (ht : Store.Sound t)
    (hkeeps : Store.Keeps s t) (hinbox : d ∉ inbox.toList) {m : Listing} (hpath : m.path = p) :
    (View.ofListing d (t.list user) m).name = requestedName c ∧
      (View.ofListing d (t.list user) m).parent.map Id.render = c.parentId := by
  subst hpath
  have hfree : d ∉ c.name.toList := fun hmem => h.resolvable (.delimited hmem)
  show m.path.leaf d = _ ∧ ((m.path.parent? d).bind (idAt? (t.list user))).map Id.render = _
  generalize m.path = p at h
  cases h with
  | top _ hparent =>
    have hname : (if Text.sameFolded c.name inbox then inbox else c.name) = requestedName c := by
      simp [requestedName, hparent]
    rw [hname]
    have hone : d ∉ (requestedName c).toList := by
      unfold requestedName
      split
      · exact hinbox
      · exact hfree
    -- a name without the delimiter is not taken apart
    obtain ⟨hnone, hleaf⟩ | ⟨q, -, -, hsplit⟩ := Path.parent?_cases ⟨user, requestedName c⟩ d
    · rw [hnone, hleaf, hparent]
      exact ⟨rfl, rfl⟩
    · rw [hsplit] at hone
      simp at hone
  | @inside id n _ hparent hn =>
    have hmem : n ∈ s.list user := List.mem_of_find?_eq_some hn
    have hid : n.id.render = id := by simpa using List.find?_some hn
    obtain ⟨huser, e, he, hlisted⟩ := hs.mem_list_iff.mp hmem
    obtain ⟨e', he', hsame⟩ := hkeeps.entry _ _ he
    -- the parent is still listed, under its number
    have hstill : (⟨e'.id, n.path, e'.messages⟩ : Listing) ∈ t.list user :=
      ht.mem_list_iff.mpr ⟨huser, e', he', rfl⟩
    have hnumber : n.id = e.id := congrArg Listing.id hlisted
    rw [← child_of_mem_list hmem, Path.leaf_child hfree, Path.parent?_child hfree, Option.bind_some,
      idAt?_of_mem ht hstill, hparent, ← hid, hnumber, ← hsame]
    refine ⟨?_, rfl⟩
    rw [requestedName, if_neg (by simp [hparent])]

end Shown

/-! ## Answers -/

section Calls

variable {b : Backend}

/-- A call that creates mailboxes is answered with what its method comes to. -/
theorem execute_setMailboxes {caller : Caller} {v value : Value} {after : Backend} (callId : String)
    (h : attempt (setMailboxes.process v caller) b = (.ok value, after)) :
    outcome (Methods.mailboxMethods.execute ⟨"setMailboxes", v, callId⟩ caller) b =
      (⟨"mailboxesSet", value, callId⟩, after) := by
  have hfind : Methods.mailboxMethods.find? "setMailboxes" = some setMailboxes := rfl
  rw [outcome_execute, outcome_call, hfind]
  dsimp only
  rw [h]
  rfl

/-- A call that asks for one id that is listed is answered with that mailbox alone. -/
theorem execute_getMailboxes_of_mem (caller : Caller) {v : Value} {m : Listing} (callId : String)
    (hs : Store.Sound b.store) (hfew : b.store.entries.length < 2 ^ 32) (hm : m ∈ b.store.list caller.user)
    (hv : listingArguments v = .ok (some [m.id.render])) :
    outcome (Methods.mailboxMethods.execute ⟨"getMailboxes", v, callId⟩ caller) b =
      (⟨"mailboxes", .object [("accountId", .string caller.user),
        ("list", .array [(View.ofListing caller.delimiter (b.store.list caller.user) m).entry]),
        ("notFound", .array [])], callId⟩, b) := by
  have hfind : Methods.mailboxMethods.find? "getMailboxes" = some getMailboxes := rfl
  have harguments : argumentsOf listingArguments v = .ok (some [m.id.render]) := by
    rw [argumentsOf, hv]
    rfl
  have hchosen : chooseViews caller.delimiter (b.store.list caller.user) (some [m.id.render]) =
      ([View.ofListing caller.delimiter (b.store.list caller.user) m], []) := by
    have hfound := findById?_of_mem hs hfew hm
    simp [chooseViews, hfound]
  rw [outcome_execute, outcome_call, hfind]
  dsimp only
  rw [process_getMailboxes, harguments]
  dsimp only [Except.map]
  rw [hchosen]
  dsimp only
  rw [listingValue_eq]
  rfl

end Calls

/-! ## Created mailboxes -/

section Created

variable {path : Creation → Except String Path} {creations : List (String × Creation)} {s t : Store}
variable {outcomes : List (String × Outcome)} {made : List (String × Path)}

/-- A creation that is answered with a number has added the mailbox that has it. -/
theorem Fulfilled.entry_of_created (h : Fulfilled path creations s outcomes made t) (hs : Keyed.Sorted s.entries)
    {key : String} {id : Id} (ho : (key, .created id) ∈ outcomes) :
    ∃ p, (key, p) ∈ made ∧ t.entryAt? p = some ⟨id, 0, 1⟩ := by
  have hkept : (key, .created id) ∈ outcomes.filter (·.2.isCreated) := List.mem_filter.mpr ⟨ho, rfl⟩
  rw [h.created_eq] at hkept
  obtain ⟨⟨⟨key', p⟩, k⟩, hm, heq⟩ := List.mem_map.mp hkept
  cases heq
  refine ⟨p, List.fst_mem_of_mem_zipIdx hm, (Keyed.find?_eq_some_iff (h.sorted_entries hs)).mpr ?_⟩
  exact h.entries_perm.mem_iff.mpr (List.mem_append_right _ (List.mem_map.mpr ⟨_, hm, rfl⟩))

/-- With fewer than `2 ^ 32` mailboxes, creations that are answered with one number are one creation. -/
theorem Fulfilled.key_of_created (h : Fulfilled path creations s outcomes made t) (hs : Store.Sound s)
    (ht : Store.Sound t) (hfew : t.entries.length < 2 ^ 32) {key key' : String} {id : Id}
    (ho : (key, .created id) ∈ outcomes) (ho' : (key', .created id) ∈ outcomes) : key = key' := by
  obtain ⟨p, hp, hentry⟩ := h.entry_of_created hs.sorted ho
  obtain ⟨q, hq, hentry'⟩ := h.entry_of_created hs.sorted ho'
  obtain rfl := ht.path_of_id hfew hentry hentry' rfl
  exact congrArg Prod.fst (List.inj_on_of_nodup_map h.nodup_made hp hq rfl)

end Created

/-- **What was set is what is got**, in every state that calls and deliveries lead to from an empty store,
where INBOX is a single component. A call that creates mailboxes is answered with the ids of those that it
has created. From then on, whatever calls and deliveries of whatever users come in between, a call of the
same user that asks for such an id is answered with one mailbox: it has this id, the name that the creation
asked for, where the inbox has its own spelling at the top, and the parent that it asked for. The ids are
pairwise different, and no mailbox had one of them before. The numbers of mailboxes are 32 bits wide, so
that all this holds as long as there are fewer than `2 ^ 32` mailboxes. -/
theorem created_is_listed (limit : Nat) (d : Char) (hinbox : d ∉ inbox.toList) {b : Backend}
    (hb : Leads (.empty limit d) b) (user : String) (v : Value) (creations : List (String × Creation))
    (hv : creationArguments v = .ok creations)
    (hsorted : (creations.map fun e => Text.utf8 e.1).Pairwise (· < ·)) (callId : String) :
    ∃ (created notCreated : List (String × Value)) (after : Backend),
      outcome (Methods.mailboxMethods.execute ⟨"setMailboxes", v, callId⟩ ⟨user, d⟩) b =
        (⟨"mailboxesSet", .object [("accountId", .string user), ("created", .object created),
          ("notCreated", .object notCreated)], callId⟩, after) ∧
      (∀ key value, (key, value) ∈ created → ∃ c i, (key, c) ∈ creations ∧
        value = .object [("id", .string i)] ∧
        (after.store.entries.length < 2 ^ 32 →
          ∀ p e, b.store.entryAt? p = some e → e.id.render ≠ i) ∧
        ∀ t, Leads after t → t.store.entries.length < 2 ^ 32 →
          ∀ v' callId', listingArguments v' = .ok (some [i]) → ∃ role messages,
            outcome (Methods.mailboxMethods.execute ⟨"getMailboxes", v', callId'⟩ ⟨user, d⟩) t =
              (⟨"mailboxes", .object [("accountId", .string user),
                ("list", .array [.object [("id", .string i), ("name", .string (requestedName c)),
                  ("parentId", c.parentId.elim .null .string), ("role", role),
                  ("totalMessages", messages)]]),
                ("notFound", .array [])], callId'⟩, t)) ∧
      (after.store.entries.length < 2 ^ 32 → (created.map (·.2)).Nodup) := by
  have hs : Store.Sound b.store := hb.sound (Store.Sound.empty limit d)
  have hd : b.store.delimiter = d := hb.keeps.delimiter
  obtain ⟨outcomes, made, store, hfulfilled, hprocess⟩ := exists_fulfilled user hs hd hinbox hv
  have houtcomes := hfulfilled.sorted (sorted_of_bytes hsorted)
  rw [creationValue_eq user houtcomes] at hprocess
  have hexecute := execute_setMailboxes callId hprocess
  -- the call is itself one of the steps that lead on from the state before it
  have hafter : Leads b { b with store := store } := by
    have hscript := (Leads.refl b).script
      (Methods.mailboxMethods.execute ⟨"setMailboxes", v, callId⟩ ⟨user, d⟩)
    rwa [hexecute] at hscript
  have hsound : Store.Sound store := hafter.sound hs
  refine ⟨_, _, _, hexecute, ?_, ?_⟩
  · intro key value hmem
    obtain ⟨o, ho, hkind, rfl⟩ := mem_membersOf.mp hmem
    cases o with
    | notCreated type text => cases hkind
    | created id =>
      obtain ⟨p, hp, hentry⟩ := hfulfilled.entry_of_created hs.sorted ho
      obtain ⟨c, hc, hpath, hnew⟩ := hfulfilled.of_mem_made hp
      have hresolves := (creationPath_ok_iff hs).mp hpath
      refine ⟨c, id.render, hc, rfl, ?_, ?_⟩
      · -- whatever had the number before would still have it, at a path that was free
        intro hfew q e he hid
        obtain ⟨e', he', hsame⟩ := hafter.keeps.entry q e he
        have hids : e'.id = id := hsame.trans (Mailbox.Id.render_injective hid)
        obtain rfl := hsound.path_of_id hfew he' hentry hids
        exact hnew (Store.contains_iff.mpr ⟨e, he⟩)
      · -- the entry is kept up to `t`, under its number and among its parents
        intro t ht hfew v' callId' hv'
        obtain ⟨e, he, hid⟩ := ht.keeps.entry p _ hentry
        have hlisted : (⟨id, p, e.messages⟩ : Listing) ∈ t.store.list user :=
          (ht.sound hsound).mem_list_iff.mpr ⟨hresolves.user_eq, e, he, by rw [hid]⟩
        obtain ⟨hname, hparent⟩ := shown_creation hresolves hs (ht.sound hsound)
          (hafter.keeps.trans ht.keeps) hinbox (m := ⟨id, p, e.messages⟩) rfl
        have hanswer := execute_getMailboxes_of_mem ⟨user, d⟩ callId' (ht.sound hsound) hfew hlisted hv'
        obtain ⟨role, messages, hshown⟩ : ∃ role messages,
            (View.ofListing d (t.store.list user) ⟨id, p, e.messages⟩).entry =
              .object [("id", .string id.render), ("name", .string (requestedName c)),
                ("parentId", c.parentId.elim .null .string), ("role", role),
                ("totalMessages", messages)] := by
          rw [← hname, ← hparent]
          exact ⟨_, _, rfl⟩
        rw [hshown] at hanswer
        exact ⟨role, messages, hanswer⟩
  · intro hfew
    refine List.Nodup.map_on ?_ (List.Nodup.of_map _ (sorted_membersOf houtcomes _).nodup_keys)
    rintro ⟨key, value⟩ hmem ⟨key', value'⟩ hmem' hvalue
    obtain ⟨o, ho, hkind, rfl⟩ := mem_membersOf.mp hmem
    obtain ⟨o', ho', hkind', rfl⟩ := mem_membersOf.mp hmem'
    cases o with
    | notCreated => cases hkind
    | created id =>
      cases o' with
      | notCreated => cases hkind'
      | created id' =>
        have hrender : id.render = id'.render := by
          simpa [Outcome.toValue, Value.ofMembers, Keyed.ofList, Keyed.insert] using hvalue
        obtain rfl := Mailbox.Id.render_injective hrender
        rw [hfulfilled.key_of_created hs hsound hfew ho ho']

/-- The inbox and a mailbox inside one that an earlier call has created. Both are found after a delivery to
the inbox and another call that creates mailboxes. -/
theorem created_is_listed_after_delivery :
    let create (creations : List (String × Value)) : Script Result :=
      Methods.mailboxMethods.execute ⟨"setMailboxes", .object [("create", .object creations)], "c0"⟩ ⟨"ann", '.'⟩
    let get (id : String) : Script Result :=
      Methods.mailboxMethods.execute ⟨"getMailboxes", .object [("ids", .array [.string id])], "c1"⟩ ⟨"ann", '.'⟩
    let b := (outcome (create [("a", .object [("name", .string "Work")])]) (.empty 255 '.')).2
    let v : Value := .object [("create", .object [("a", .object [("name", .string "inbox")]),
      ("b", .object [("name", .string "Plans"), ("parentId", .string "1")])])]
    let creations : List (String × Creation) := [("a", ⟨"inbox", none⟩), ("b", ⟨"Plans", some "1"⟩)]
    let after := (outcome (Methods.mailboxMethods.execute ⟨"setMailboxes", v, "c0"⟩ ⟨"ann", '.'⟩) b).2
    let delivered : Backend := { after with store := (after.store.deliver ⟨"ann", inbox⟩).2 }
    let t := (outcome (create [("a", .object [("name", .string "Plans")])]) delivered).2
    '.' ∉ inbox.toList ∧ Leads (.empty 255 '.') b ∧ creationArguments v = .ok creations ∧
    (creations.map fun e => Text.utf8 e.1).Pairwise (· < ·) ∧
    (∃ role messages, outcome (get "2") t = (⟨"mailboxes", .object [("accountId", .string "ann"),
      ("list", .array [.object [("id", .string "2"), ("name", .string "INBOX"), ("parentId", .null),
        ("role", role), ("totalMessages", messages)]]), ("notFound", .array [])], "c1"⟩, t)) ∧
    ∃ role messages, outcome (get "3") t = (⟨"mailboxes", .object [("accountId", .string "ann"),
      ("list", .array [.object [("id", .string "3"), ("name", .string "Plans"), ("parentId", .string "1"),
        ("role", role), ("totalMessages", messages)]]), ("notFound", .array [])], "c1"⟩, t) := by
  intro create get b v creations after delivered t
  have hinbox : '.' ∉ inbox.toList := by decide
  have hb : Leads (.empty 255 '.') b := (Leads.refl _).script _
  have hv : creationArguments v = .ok creations := rfl
  have hsorted : (creations.map fun e => Text.utf8 e.1).Pairwise (· < ·) := by decide
  have ht : Leads after t := ((Leads.refl after).deliver _).script _
  have hfew : t.store.entries.length < 2 ^ 32 := by decide +kernel
  obtain ⟨created, notCreated, after', hexecute, hlisted, -⟩ :=
    created_is_listed 255 '.' hinbox hb "ann" v creations hv hsorted "c0"
  have hanswer : (outcome (Methods.mailboxMethods.execute ⟨"setMailboxes", v, "c0"⟩ ⟨"ann", '.'⟩) b).1 =
      ⟨"mailboxesSet", .object [("accountId", .string "ann"), ("created", .object
        [("a", .object [("id", .string "2")]), ("b", .object [("id", .string "3")])]),
        ("notCreated", .object [])], "c0"⟩ := by
    dsimp only [b, create, v]
    rfl
  obtain rfl : after = after' := congrArg Prod.snd hexecute
  rw [hexecute] at hanswer
  obtain ⟨rfl, -⟩ : created = [("a", .object [("id", .string "2")]), ("b", .object [("id", .string "3")])] ∧
      notCreated = [] := by
    simpa using hanswer
  refine ⟨hinbox, hb, hv, hsorted, ?_, ?_⟩
  · obtain ⟨c, i, hc, hi, -, hread⟩ := hlisted "a" (.object [("id", .string "2")]) (by simp)
    obtain rfl : i = "2" := by simpa using hi.symm
    obtain rfl : c = ⟨"inbox", none⟩ := by simpa [creations] using hc
    exact hread t ht hfew _ _ rfl
  · obtain ⟨c, i, hc, hi, -, hread⟩ := hlisted "b" (.object [("id", .string "3")]) (by simp)
    obtain rfl : i = "3" := by simpa using hi.symm
    obtain rfl : c = ⟨"Plans", some "1"⟩ := by simpa [creations] using hc
    exact hread t ht hfew _ _ rfl

end MailServer.Jmap
