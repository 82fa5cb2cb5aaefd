import Mathlib.Logic.Function.Basic
import MailServer.Proofs.Confined
import MailServer.Proofs.Course
import MailServer.Proofs.Numbering

/-!
# Users apart

All users share one store and one registry. What a user is answered depends on the user's part of
them alone, and on the number that the next mailbox gets; and what a user does leaves the parts of all
others as they are. Deliveries count as events of the user who gets the message.

* `State`, `Event`, `respond` — a server with its sessions, what happens to it, and what is answered.
* `State.only` — the state with one user's part alone.
* `respond_only` — an event of a user is answered from that part; `untouched_respond` — and leaves the
  others' as they are.
* `respond_agree` — an event of a user in two states that agree on the user.
* `run_alike` — a user's events among those of others.
* `users_isolated` — both.
-/

namespace MailServer.Shared

open Mailbox (Path Store)
open Service (Backend)

/-! ## Events and answers -/

/-- A server with its sessions. A user may have many of them, each under a number, and each has a
mailbox selected or none. -/
structure State where
  backend : Backend
  selected : String → Nat → Option Imap.Selection

/-- Something that happens to a server. -/
inductive Event where
  | request (r : Http.Request)
  | command (user : String) (session : Nat) (c : Imap.Command)
  | deliver (path : Path)

/-- What an event is answered with. -/
inductive Answer where
  | response (response : Http.Response) (trace : Http.Trace)
  | lines (lines : List Imap.Response)
  | delivered (reply : Except Mailbox.Error UInt32)

section Events

variable (tokens : Http.Tokens)

/-- The user whose event it is. A request without a known sender is nobody's. -/
def owner : Event → Option String
  | .request r => (tokens.authenticate r).toOption.map (·.user)
  | .command user _ _ => some user
  | .deliver path => some path.user

/-- What an event is answered with, and the state after it. -/
def respond (s : State) : Event → Answer × State
  | .request r =>
    let done := s.backend.run ((Jmap.stages tokens .mailboxMethods).process r)
    (.response done.1.1 done.1.2, { s with backend := done.2.1 })
  | .command user k c =>
    let done := s.backend.run (c.process ⟨⟨user, tokens.delimiter⟩, s.selected user k⟩)
    (.lines done.1.2,
      ⟨done.2.1, Function.update s.selected user
        (Function.update (s.selected user) k done.1.1.selected)⟩)
  | .deliver path =>
    let done := s.backend.store.deliver path
    (.delivered done.1, { s with backend := { s.backend with store := done.2 } })

/-- The state after events, one after the other. -/
def run (events : List Event) (s : State) : State :=
  events.foldl (fun s e => (respond tokens s e).2) s

/-- The user's own events among these. -/
def own (user : String) (events : List Event) : List Event :=
  events.filter (owner tokens · = some user)

/-- What the user's own events are answered with. -/
def seen (user : String) : List Event → State → List Answer
  | [], _ => []
  | e :: events, s =>
    let later := seen user events (respond tokens s e).2
    if owner tokens e = some user then (respond tokens s e).1 :: later else later

end Events

/-! ## States -/

/-- The store is in order, and every session has a mailbox of its own user selected, or none. -/
structure State.WellFormed (s : State) : Prop where
  sorted : Keyed.Sorted s.backend.store.entries
  own : ∀ user k selection, s.selected user k = some selection → selection.path.user = user

/-- The states are alike to the user: the same limit and delimiter, mailboxes, entry in the registry
and selections. -/
structure Alike (user : String) (s t : State) : Prop where
  limit : t.backend.store.limit = s.backend.store.limit
  delimiter : t.backend.store.delimiter = s.backend.store.delimiter
  owned : t.backend.store.owned user = s.backend.store.owned user
  known : t.backend.registry.contains user = s.backend.registry.contains user
  selected : t.selected user = s.selected user

/-- The states agree on the user: they are alike to the user, and the next mailbox gets the same
number. -/
structure Agree (user : String) (s t : State) : Prop extends Alike user s t where
  lastId : t.backend.store.lastId = s.backend.store.lastId

/-- The later state has the user's part as it was. -/
structure Untouched (user : String) (s after : State) : Prop where
  backend : s.backend.Untouched user after.backend
  selected : after.selected user = s.selected user

/-- The state with one user's part alone. -/
def State.only (user : String) (s : State) : State :=
  ⟨s.backend.only user, Function.update (fun _ _ => none) user (s.selected user)⟩

/-- The state with another number given out last. -/
def State.countedFrom (n : UInt32) (s : State) : State := { s with backend := s.backend.countedFrom n }

variable {tokens : Http.Tokens} {user : String} {s t : State} {e : Event}

/-- States that are alike to the user have the same part of the user, but for the number given out
last. -/
theorem alike_iff : Alike user s t ↔ ∃ n, t.only user = (s.only user).countedFrom n := by
  constructor
  · intro h
    refine ⟨t.backend.store.lastId, ?_⟩
    simp only [State.only, State.countedFrom, Backend.only, Backend.countedFrom, Store.only,
      Store.countedFrom, Account.Registry.only, h.limit, h.delimiter, h.owned, h.known, h.selected]
  · rintro ⟨n, h⟩
    simp only [State.only, State.countedFrom, Backend.only, Backend.countedFrom, Store.only,
      Store.countedFrom, State.mk.injEq, Backend.mk.injEq, Store.mk.injEq] at h
    obtain ⟨⟨⟨hlimit, hdelimiter, -, howned⟩, hknown⟩, hselected⟩ := h
    refine ⟨hlimit, hdelimiter, howned, ?_, ?_⟩
    · rw [← Account.Registry.contains_only, hknown, Account.Registry.contains_only]
    · have hat := congrFun hselected user
      rwa [Function.update_self, Function.update_self] at hat

/-- States that agree on the user have the same part of the user. -/
theorem agree_iff : Agree user s t ↔ t.only user = s.only user := by
  constructor
  · intro h
    obtain ⟨n, hn⟩ := alike_iff.mp h.toAlike
    have hlast : t.backend.store.lastId = n := congrArg (·.backend.store.lastId) hn
    rw [hn, ← hlast, h.lastId]
    rfl
  · intro h
    exact ⟨alike_iff.mpr ⟨s.backend.store.lastId, h⟩, congrArg (·.backend.store.lastId) h⟩

/-! ## An event of the user -/

/-- A command of a user is confined to the user, as a session has mailboxes of its user selected. -/
theorem confined_command (tokens : Http.Tokens) (hs : s.WellFormed) (user : String) (k : Nat)
    (c : Imap.Command) :
    (c.process ⟨⟨user, tokens.delimiter⟩, s.selected user k⟩).Confined user
      fun answered => answered.1.Own user := by
  have hown : Imap.Session.Own user ⟨⟨user, tokens.delimiter⟩, s.selected user k⟩ :=
    ⟨rfl, fun selection h => hs.own user k selection h⟩
  exact Imap.Command.confined_process hown c

/-- The sender of a request of the user, if it is known, is the user. -/
theorem user_of_owner {r : Http.Request} (h : owner tokens (.request r) = some user) (caller : Caller)
    (hcaller : tokens.authenticate r = .ok caller) : caller.user = user := by
  rw [owner, hcaller] at h
  exact Option.some.inj h

/-- **An event of the user is answered from the user's part**, which it leaves as it leaves that part
of the whole server. -/
theorem respond_only (hown : owner tokens e = some user) (hs : s.WellFormed) :
    respond tokens (s.only user) e =
      ((respond tokens s e).1, (respond tokens s e).2.only user) := by
  cases e with
  | request r =>
    have hrun := (Http.confined_request (user_of_owner hown)).run_only hs.sorted
    unfold respond State.only
    dsimp only
    rw [hrun]
  | command sender k c =>
    cases hown
    have hrun := (confined_command tokens hs user k c).run_only hs.sorted
    unfold respond State.only
    dsimp only
    rw [Function.update_self, hrun, Function.update_idem, Function.update_self]
  | deliver path =>
    cases hown
    unfold respond State.only Backend.only
    dsimp only
    rw [Store.deliver_only rfl hs.sorted]

/-- An event that leaves mailboxes of the same numbers in two states that differ in the number given
out last is answered the same, and they differ in nothing else behind it. -/
theorem respond_countedFrom {n : UInt32}
    (h : Store.SameIds (fun _ => True) (respond tokens s e).2.backend.store
      (respond tokens (s.countedFrom n) e).2.backend.store) :
    ∃ m, respond tokens (s.countedFrom n) e =
      ((respond tokens s e).1, (respond tokens s e).2.countedFrom m) := by
  cases e with
  | request r =>
    obtain ⟨m, hrun⟩ := Backend.run_countedFrom h
    refine ⟨m, ?_⟩
    unfold respond State.countedFrom
    dsimp only
    rw [hrun]
  | command sender k c =>
    obtain ⟨m, hrun⟩ := Backend.run_countedFrom h
    refine ⟨m, ?_⟩
    unfold respond State.countedFrom
    dsimp only
    rw [hrun]
  | deliver path =>
    refine ⟨n, ?_⟩
    unfold respond State.countedFrom Backend.countedFrom
    dsimp only
    rw [Store.deliver_countedFrom]

/-! ## An event of another user -/

theorem wellFormed_respond (hs : s.WellFormed) (e : Event) : (respond tokens s e).2.WellFormed := by
  cases e with
  | request r => exact ⟨Backend.sorted_run _ hs.sorted, hs.own⟩
  | command sender k c =>
    have hafter := (confined_command tokens hs sender k c).post s.backend
    refine ⟨Backend.sorted_run _ hs.sorted, ?_⟩
    intro user j selection hselected
    unfold respond at hselected
    dsimp only at hselected
    by_cases huser : user = sender
    · subst huser
      rw [Function.update_self] at hselected
      by_cases hj : j = k
      · subst hj
        rw [Function.update_self] at hselected
        exact hafter.selected selection hselected
      · rw [Function.update_of_ne hj] at hselected
        exact hs.own user j selection hselected
    · rw [Function.update_of_ne huser] at hselected
      exact hs.own user j selection hselected
  | deliver path => exact ⟨Store.sorted_deliver hs.sorted path, hs.own⟩

/-- **An event leaves everyone alone but its user.** -/
theorem untouched_respond (hother : owner tokens e ≠ some user) (hs : s.WellFormed) :
    Untouched user s (respond tokens s e).2 := by
  cases e with
  | request r =>
    refine ⟨?_, rfl⟩
    cases hcaller : tokens.authenticate r with
    | error cause =>
      have hkept : (respond tokens s (.request r)).2.backend = s.backend :=
        Http.Stages.refused_leaves_state Backend.answer s.backend (Or.inl ⟨cause, hcaller⟩)
      rw [hkept]
      exact Backend.Untouched.refl user s.backend
    | ok caller =>
      have hne : user ≠ caller.user := by
        rintro rfl
        exact hother (by rw [owner, hcaller]; rfl)
      have hsender : ∀ sender, tokens.authenticate r = .ok sender → sender.user = caller.user := by
        intro sender h
        rw [hcaller] at h
        cases h
        rfl
      exact (Http.confined_request hsender).untouched hne s.backend
  | command sender k c =>
    have hne : user ≠ sender := by
      rintro rfl
      exact hother rfl
    refine ⟨?_, Function.update_of_ne hne _ _⟩
    exact (confined_command tokens hs sender k c).untouched hne s.backend
  | deliver path =>
    have hne : path.user ≠ user := fun h => hother (congrArg some h)
    exact ⟨⟨Store.owned_deliver hne s.backend.store, rfl⟩, rfl⟩

theorem keeps_respond (tokens : Http.Tokens) (s : State) (e : Event) :
    Store.Keeps s.backend.store (respond tokens s e).2.backend.store := by
  cases e with
  | request r => exact Backend.keeps_run _ s.backend
  | command sender k c => exact Backend.keeps_run _ s.backend
  | deliver path => exact Store.keeps_deliver s.backend.store path

/-- An event of another user leaves a state that is alike to the user. -/
theorem alike_respond (hother : owner tokens e ≠ some user) (hs : s.WellFormed) :
    Alike user s (respond tokens s e).2 := by
  have hkept := keeps_respond tokens s e
  have huntouched := untouched_respond hother hs
  exact ⟨hkept.limit, hkept.delimiter, huntouched.backend.owned, huntouched.backend.known,
    huntouched.selected⟩

/-! ## The same event in two states -/

theorem Alike.refl (user : String) (s : State) : Alike user s s := ⟨rfl, rfl, rfl, rfl, rfl⟩

theorem Alike.symm (h : Alike user s t) : Alike user t s :=
  ⟨h.limit.symm, h.delimiter.symm, h.owned.symm, h.known.symm, h.selected.symm⟩

theorem Alike.trans {u : State} (h : Alike user s t) (h' : Alike user t u) : Alike user s u :=
  ⟨h'.limit.trans h.limit, h'.delimiter.trans h.delimiter, h'.owned.trans h.owned,
    h'.known.trans h.known, h'.selected.trans h.selected⟩

/-- In the parts of the user all mailboxes are the user's. -/
theorem sameIds_only (h : Store.SameIds (·.user = user) s.backend.store t.backend.store) :
    Store.SameIds (fun _ => True) (s.only user).backend.store (t.only user).backend.store := by
  intro p e e' _ he he'
  have hmem := Keyed.mem_of_find? he
  have hp : p.user = user := beq_iff_eq.mp (List.mem_filter.mp hmem).2
  refine h p e e' hp ?_ ?_
  · rw [← Store.entryAt?_only hp]
    exact he
  · rw [← Store.entryAt?_only hp]
    exact he'

/-- **States that agree on the user** answer an event of the user the same, and agree behind it. -/
theorem respond_agree (hown : owner tokens e = some user) (hs : s.WellFormed) (ht : t.WellFormed)
    (h : Agree user s t) :
    (respond tokens t e).1 = (respond tokens s e).1 ∧
      Agree user (respond tokens s e).2 (respond tokens t e).2 := by
  have hsame := respond_only hown ht
  rw [agree_iff.mp h, respond_only hown hs, Prod.mk.injEq] at hsame
  exact ⟨hsame.1.symm, agree_iff.mpr hsame.2.symm⟩

/-- **States that are alike to the user** answer an event of the user the same where it leaves the
user mailboxes of the same numbers. -/
theorem respond_alike (hown : owner tokens e = some user) (hs : s.WellFormed) (ht : t.WellFormed)
    (h : Alike user s t)
    (hids : Store.SameIds (·.user = user) (respond tokens s e).2.backend.store
      (respond tokens t e).2.backend.store) :
    (respond tokens t e).1 = (respond tokens s e).1 ∧
      Alike user (respond tokens s e).2 (respond tokens t e).2 := by
  obtain ⟨n, hn⟩ := alike_iff.mp h
  have hfirst := respond_only hown hs
  have hsecond := respond_only hown ht
  rw [hn] at hsecond
  -- the two parts differ in the number given out last, and so do the states that the event leaves
  have hparts : Store.SameIds (fun _ => True) (respond tokens (s.only user) e).2.backend.store
      (respond tokens ((s.only user).countedFrom n) e).2.backend.store := by
    rw [hfirst, hsecond]
    exact sameIds_only hids
  obtain ⟨m, hm⟩ := respond_countedFrom hparts
  rw [hfirst, hsecond, Prod.mk.injEq] at hm
  exact ⟨hm.1, alike_iff.mpr ⟨m, hm.2⟩⟩

/-! ## Runs -/

section Runs

variable {events events' : List Event}

theorem run_cons (e : Event) (events : List Event) (s : State) :
    run tokens (e :: events) s = run tokens events (respond tokens s e).2 := rfl

theorem run_append (events events' : List Event) (s : State) :
    run tokens (events ++ events') s = run tokens events' (run tokens events s) := List.foldl_append

theorem seen_append (events events' : List Event) (s : State) :
    seen tokens user (events ++ events') s =
      seen tokens user events s ++ seen tokens user events' (run tokens events s) := by
  induction events generalizing s with
  | nil => rfl
  | cons e events ih =>
    rw [List.cons_append, seen, seen, ih, run_cons]
    split
    · rfl
    · rfl

theorem wellFormed_run (hs : s.WellFormed) (events : List Event) : (run tokens events s).WellFormed := by
  induction events generalizing s with
  | nil => exact hs
  | cons e events ih => exact ih (wellFormed_respond hs e)

theorem keeps_run (events : List Event) (s : State) :
    Store.Keeps s.backend.store (run tokens events s).backend.store := by
  induction events generalizing s with
  | nil => exact Store.Keeps.refl _
  | cons e events ih => exact (keeps_respond tokens s e).trans (ih _)

/-- Events of others show the user nothing, and leave a state that is alike to the user. Induction on
the events. -/
theorem run_others (hothers : ∀ e ∈ events, owner tokens e ≠ some user) (hs : s.WellFormed) :
    seen tokens user events s = [] ∧ Alike user s (run tokens events s) := by
  induction events generalizing s with
  | nil => exact ⟨rfl, Alike.refl user s⟩
  | cons e events ih =>
    obtain ⟨hother, hothers⟩ := List.forall_mem_cons.mp hothers
    obtain ⟨hseen, halike⟩ := ih hothers (wellFormed_respond hs e)
    refine ⟨?_, (alike_respond hother hs).trans halike⟩
    rw [seen, if_neg hother, hseen]

/-- **The user's events among those of others.** Two runs with the same events of the user, from states
that are alike to the user, show the user the same and end in states alike to the user, where they end
with the user's mailboxes under the same numbers. Induction on the first run: an event of another user
keeps the states alike, and one of the user comes in the second run after some of others. -/
theorem run_alike (hsame : own tokens user events' = own tokens user events) (hs : s.WellFormed)
    (ht : t.WellFormed) (h : Alike user s t)
    (hids : Store.SameIds (·.user = user) (run tokens events s).backend.store
      (run tokens events' t).backend.store) :
    seen tokens user events' t = seen tokens user events s ∧
      Alike user (run tokens events s) (run tokens events' t) := by
  induction events generalizing events' s t with
  | nil =>
    have hothers : ∀ e ∈ events', owner tokens e ≠ some user := by
      simpa [own] using hsame
    obtain ⟨hseen, halike⟩ := run_others hothers ht
    exact ⟨hseen, h.trans halike⟩
  | cons e events ih =>
    by_cases hown : owner tokens e = some user
    · have hcons : own tokens user (e :: events) = e :: own tokens user events :=
        List.filter_cons_of_pos (by simpa using hown)
      rw [hcons] at hsame
      -- in the second run the event comes behind some of others, which the user does not notice
      obtain ⟨others, rest, rfl, hothers, -, hrest⟩ := List.filter_eq_cons_iff.mp hsame
      obtain ⟨hseen, halike⟩ := run_others (by simpa using hothers) ht
      have ht' : (run tokens others t).WellFormed := wellFormed_run ht others
      rw [run_append, run_cons] at hids ⊢
      obtain ⟨hanswer, hnext⟩ := respond_alike hown hs ht' (h.trans halike)
        (hids.of_keeps (keeps_run events _) (keeps_run rest _))
      obtain ⟨hlater, hend⟩ := ih hrest (wellFormed_respond hs e) (wellFormed_respond ht' e) hnext hids
      refine ⟨?_, hend⟩
      rw [seen_append, hseen, List.nil_append, seen, if_pos hown, hanswer, hlater, seen, if_pos hown]
    · have hcons : own tokens user (e :: events) = own tokens user events :=
        List.filter_cons_of_neg (by simpa using hown)
      rw [hcons] at hsame
      obtain ⟨hseen, hend⟩ := ih hsame (wellFormed_respond hs e) ht ((alike_respond hown hs).symm.trans h)
        hids
      refine ⟨?_, hend⟩
      rw [hseen, seen, if_neg hown]

end Runs

/-- **Users are apart.** An event of a user, in two states that agree on the user, is answered the same
and leaves states that agree on the user; and it leaves the parts of all others as they are. So two runs
with the same events of the user among any events of others show the user the same, from states that are
alike to the user, as far as the user's mailboxes come to the same numbers. -/
theorem users_isolated (tokens : Http.Tokens) (user : String) :
    (∀ e s t, owner tokens e = some user → s.WellFormed → t.WellFormed → Agree user s t →
      (respond tokens t e).1 = (respond tokens s e).1 ∧
      Agree user (respond tokens s e).2 (respond tokens t e).2 ∧
      ∀ other, other ≠ user → Untouched other s (respond tokens s e).2) ∧
    (∀ e s, s.WellFormed → (respond tokens s e).2.WellFormed) ∧
    ∀ events events' s t, s.WellFormed → t.WellFormed → Alike user s t →
      own tokens user events' = own tokens user events →
      Store.SameIds (·.user = user) (run tokens events s).backend.store
        (run tokens events' t).backend.store →
      seen tokens user events' t = seen tokens user events s ∧
        Alike user (run tokens events s) (run tokens events' t) := by
  refine ⟨?_, fun e s hs => wellFormed_respond hs e, ?_⟩
  · intro e s t hown hs ht h
    obtain ⟨hanswer, hagree⟩ := respond_agree hown hs ht h
    refine ⟨hanswer, hagree, ?_⟩
    intro other hother
    refine untouched_respond ?_ hs
    rw [hown]
    exact fun heq => hother (Option.some.inj heq).symm
  · intro events events' s t hs ht h hsame hids
    exact run_alike hsame hs ht h hids

/-- A user asks for a mailbox inside the mailbox of number 1, which belongs to one user or to another,
and gets the same answer; and the user sees the same of the own inbox, whether or not another user has
made a mailbox before. -/
theorem users_isolated_parent_of_another :
    let tokens := (Http.Tokens.empty '.').register "token" "ann"
    let server (owner name : String) : State :=
      ⟨(Backend.answer (.createMailbox ⟨owner, name⟩) (.empty 200 '.')).2, fun _ _ => none⟩
    let creation : Json.Value := .ofMembers [("name", .string "A"), ("parentId", .string "1")]
    let arguments : Json.Value := .ofMembers [("create", .ofMembers [("a", creation)])]
    let call : Jmap.Invocation := ⟨"setMailboxes", arguments, "c1"⟩
    let headers := Http.Headers.empty.insert "Authorization" "Bearer token"
    let request : Event :=
      .request ⟨.post, "/jmap", headers, Text.utf8 (Json.Value.array [call.toValue]).render⟩
    let select : Event := .command "ann" 0 ⟨"a1", .select, "INBOX"⟩
    let create : Event := .command "bob" 0 ⟨"b1", .create, "Plans"⟩
    (respond tokens (server "bob" "Plans") request).1 =
        (respond tokens (server "eve" "Secrets") request).1 ∧
      Untouched "bob" (server "bob" "Plans") (respond tokens (server "bob" "Plans") request).2 ∧
      seen tokens "ann" [create, select] (server "ann" "INBOX") =
        seen tokens "ann" [select] (server "ann" "INBOX") := by
  intro tokens server creation arguments call headers request select create
  have hserver : ∀ owner name, (server owner name).WellFormed := by
    intro owner name
    have hempty : Keyed.Sorted (Store.empty 200 '.').entries := List.Pairwise.nil
    exact ⟨Store.sorted_create hempty ⟨owner, name⟩, nofun⟩
  have hagree : Agree "ann" (server "eve" "Secrets") (server "bob" "Plans") :=
    ⟨⟨by decide +kernel, by decide +kernel, by decide +kernel, rfl, rfl⟩, by decide +kernel⟩
  obtain ⟨hevent, -, hruns⟩ := users_isolated tokens "ann"
  have hrequest : owner tokens request = some "ann" := by decide +kernel
  refine ⟨(hevent request _ _ hrequest (hserver _ _) (hserver _ _) hagree).1, ?_, ?_⟩
  · exact (hevent request _ _ hrequest (hserver _ _) (hserver _ _)
      (agree_iff.mpr rfl)).2.2 "bob" (by decide)
  · refine (hruns [select] [create, select] _ _ (hserver _ _) (hserver _ _) (Alike.refl _ _) rfl ?_).1
    -- the inbox is the only mailbox of the user in both runs, under the same number
    have howned : (run tokens [create, select] (server "ann" "INBOX")).backend.store.owned "ann" =
        (run tokens [select] (server "ann" "INBOX")).backend.store.owned "ann" := by
      decide +kernel
    intro p e e' hp he he'
    rw [← Store.entryAt?_only hp, Store.entryAt?, Store.only] at he he'
    rw [howned, he] at he'
    cases he'
    rfl

end MailServer.Shared
