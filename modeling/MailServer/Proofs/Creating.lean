import MailServer.Proofs.Dialogue
import MailServer.Proofs.Isolation
import MailServer.Proofs.Listing
import MailServer.Proofs.World

/-!
# Two ways to create a mailbox

`CREATE` resolves a whole name, `setMailboxes` puts a name of one component inside a mailbox that it finds
by its number. In every state that can be reached all names are canonical, so that a whole name made of a
mailbox's and one component resolves to the mailbox inside that one; and every selected mailbox is there,
so that nothing goes wrong behind a creation. Then the two do the same.

* `Mailbox.createByName` — what both come to: the name resolved and its path created.
* `Imap.process_create`, `Jmap.execute_singleCreation` — a `CREATE` and a call with a single creation, from
  that.
* `Shared.Reached` — what holds in every state; `reached_run`.
* `Shared.Matches` — the answers that go together; `matches_createdLine` for whatever creating by name comes to.
* `Shared.creations_agree` — the same store, and answers that match.
-/

namespace MailServer

/-! ## Names -/

namespace Mailbox

/-- The name of the mailbox that is called `leaf` inside another one, or at the top. -/
def nameInside (d : Char) (parent : Option Listing) (leaf : String) : String :=
  match parent with
  | none => leaf
  | some m => m.path.name ++ String.singleton d ++ leaf

/-- A name made of a canonical one and a component means the mailbox inside. -/
theorem resolve_child {d : Char} {p : Path} {leaf : String} (h : Canonical d p.name.toList)
    (hleaf : leaf ≠ "") (hfree : d ∉ leaf.toList) :
    resolve ⟨p.user, d⟩ (p.name ++ String.singleton d ++ leaf) = .ok (p.child leaf d) := by
  have hname : p.name ++ String.singleton d ++ leaf = (p.child leaf d).name := by
    rw [← String.toList_inj]
    show _ = (p.sibling _).name.toList
    rw [Path.sibling_name]
    simp
  rw [hname]
  exact resolve_of_canonical p.user (h.child (by simpa using hleaf) hfree)

/-- A name that is refused is no name. -/
theorem invalidName_of_resolve {caller : Caller} {name : String} {cause : Error}
    (h : resolve caller name = .error cause) : ∃ reason, cause = .invalidName name reason := by
  unfold resolve at h
  dsimp only at h
  split at h
  · cases h
    exact ⟨_, rfl⟩
  · cases h

/-- Resolves a name and creates its path. -/
def createByName (caller : Caller) (name : String) (s : Store) : Except Error Id × Store :=
  match resolve caller name with
  | .error cause => (.error cause, s)
  | .ok path => s.create path

/-- What is created by name is a new mailbox under the path of the name. -/
theorem createByName_ok {caller : Caller} {name : String} {s : Store} {id : Id}
    (h : (createByName caller name s).1 = .ok id) :
    ∃ path, resolve caller name = .ok path ∧ ¬ s.contains path = true ∧
      (createByName caller name s).2.entryAt? path = some ⟨id, 0, 1⟩ := by
  unfold createByName at h ⊢
  cases hresolve : resolve caller name with
  | error cause =>
    rw [hresolve] at h
    cases h
  | ok path =>
    rw [hresolve] at h
    refine ⟨path, rfl, ?_⟩
    dsimp only at h ⊢
    rcases Store.create_cases s path with ⟨-, hc⟩ | ⟨-, -, hc⟩ | ⟨-, hnew, hc⟩
    · rw [hc] at h
      cases h
    · rw [hc] at h
      cases h
    · rw [hc] at h ⊢
      cases h
      exact ⟨hnew, by rw [Store.grown, Store.entryAt?_add, if_pos rfl]; rfl⟩

end Mailbox

/-! ## CREATE -/

namespace Imap

open Mailbox (Store createByName)
open Service (Backend)
open Service.Backend

/-- What a `CREATE` comes to is in its tagged line. -/
def createdLine (tag name : String) : Except Mailbox.Error Mailbox.Id → Tagged
  | .ok _ => .completed tag "CREATE" none
  | .error cause =>
    (createRules.resolve cause (Command.context ⟨tag, .create, name⟩)).action.line tag "CREATE"

theorem tag_createdLine (tag name : String) (reply : Except Mailbox.Error Mailbox.Id) :
    (createdLine tag name reply).tag = tag := by
  cases reply <;> rfl

/-- The line as it is sent has no code. -/
theorem render_createdLine (tag name : String) (reply : Except Mailbox.Error Mailbox.Id) :
    let line := createdLine tag name reply
    line.render = tag ++ (" " ++ line.status.name ++ " CREATE " ++ line.reason.text) := by
  cases reply <;> simp [createdLine, Refusal.line, Tagged.completed, Tagged.render, Tagged.codePart,
    String.append_assoc]

/-- A `CREATE` creates by name, and then has its selected mailbox to look at. -/
theorem process_create (tag name : String) {s : Session} {b : Backend} (h : s.Open b.store) :
    ∃ after news, outcome (Command.process ⟨tag, .create, name⟩ s) b =
        ((after, news ++ [.tagged (createdLine tag name (createByName s.caller name b.store).1)]),
          { b with store := (createByName s.caller name b.store).2 }) ∧
      news.filterMap Response.tagged? = [] := by
  have hattempt : Command.attempt ⟨tag, .create, name⟩ s = Command.create ⟨tag, .create, name⟩ s := rfl
  rw [Command.outcome_process, hattempt, Command.create, attempt_bind, attempt_liftExcept, createByName]
  dsimp only
  cases hresolve : Mailbox.resolve s.caller name with
  | error cause => exact ⟨_, [], rfl, rfl⟩
  | ok path =>
    dsimp only
    rw [attempt_bind, attempt_mk, outcome_ask]
    dsimp only [Backend.answer]
    -- the selected mailbox is still there for the look behind the creation
    have hpolled := Session.attempt_poll (b := { b with store := (b.store.create path).2 })
      fun selection hselected => (Store.keeps_create b.store path).contains (h selection hselected)
    obtain ⟨polled, news, hpoll, hnews⟩ := hpolled
    cases hcreate : (b.store.create path).1 with
    | error cause => exact ⟨_, [], rfl, rfl⟩
    | ok id =>
      dsimp only
      rw [attempt_bind_ok hpoll]
      exact ⟨polled, news, rfl, by cases hnews <;> rfl⟩

/-- The selected mailbox is there after a command as well. -/
theorem Answered.isOpen {c : Command} {s after : Session} {b state : Backend} {news : List Response}
    {line : Tagged} (h : Answered c s b after news line state) (hopen : s.Open b.store) :
    after.Open state.store := by
  cases h with
  | refused =>
    unfold Command.sessionAfterFailure
    split
    · exact hopen
    · exact fun _ hselected => nomatch hselected
  | @created path _ _ _ hpolled =>
    have hkept : ∀ selection, s.selected = some selection →
        (b.store.create path).2.contains selection.path = true := fun selection hselected =>
      (Store.keeps_create b.store path).contains (hopen selection hselected)
    cases hpolled with
    | none => exact hkept
    | known => exact hkept
    | @told selection _ hselected _ _ =>
      rintro _ ⟨⟩
      exact hkept selection hselected
  | selected _ _ hstatus =>
    rintro _ ⟨⟩
    exact contains_of_status hstatus

end Imap

/-! ## setMailboxes -/

namespace Jmap

open Json (Value)
open Mailbox (Listing Store createByName nameInside)
open Service (Backend)
open Service.Backend

/-- What is shown as created has been created, under the number that is shown. -/
theorem ofReply_of_membersOf {key id : String} {reply : Except Mailbox.Error Mailbox.Id}
    (h : membersOf (·.isCreated) [(key, .ofReply reply)] = [(key, .object [("id", .string id)])]) :
    ∃ made, reply = .ok made ∧ toString made.number.toNat = id := by
  cases reply with
  | ok made =>
    refine ⟨made, rfl, ?_⟩
    simpa [membersOf, Outcome.ofReply, Outcome.isCreated, toValue_created] using h
  | error cause => cases cause <;> cases h

/-- Arguments with a single creation, inside a mailbox or at the top. -/
def singleCreation (key leaf : String) (parent : Option Listing) : Value :=
  .object [("create", .object [(key, .object (("name", .string leaf) ::
    (parent.map fun m => ("parentId", .string (toString m.id.number.toNat))).toList))])]

theorem argumentsOf_singleCreation (key leaf : String) (parent : Option Listing) :
    argumentsOf creationArguments (singleCreation key leaf parent) =
      .ok [(key, ⟨leaf, parent.map (·.id.render)⟩)] := by
  cases parent <;> rfl

/-- The path of a creation is that of its whole name. -/
theorem creationPath_eq {user leaf : String} {d : Char} (existing : List Listing)
    {parent : Option Listing} (hleaf : leaf ≠ "") (hfree : d ∉ leaf.toList)
    (hparent : ∀ m ∈ parent, findById? existing m.id.render = some m ∧ m.path.user = user ∧
      Mailbox.Canonical d m.path.name.toList) :
    creationPath ⟨user, d⟩ existing ⟨leaf, parent.map (·.id.render)⟩ =
      (Mailbox.resolve ⟨user, d⟩ (nameInside d parent leaf)).mapError (·.message) := by
  unfold creationPath
  rw [if_neg (by simp [hleaf, hfree])]
  cases parent with
  | none => rfl
  | some m =>
    obtain ⟨hfind, rfl, hcanonical⟩ := hparent m rfl
    dsimp only [Option.map_some]
    rw [hfind, nameInside, Mailbox.resolve_child hcanonical hleaf hfree]
    rfl

/-- A creation comes to what its whole name comes to. -/
theorem outcomeIn_eq {caller : Caller} {existing : List Listing} {c : Creation} {name : String}
    (h : creationPath caller existing c = (Mailbox.resolve caller name).mapError (·.message)) (s : Store) :
    outcomeIn caller existing c s =
      (.ofReply (createByName caller name s).1, (createByName caller name s).2) := by
  unfold outcomeIn createByName
  rw [h]
  cases hresolve : Mailbox.resolve caller name with
  | ok path => rfl
  | error cause =>
    obtain ⟨reason, rfl⟩ := Mailbox.invalidName_of_resolve hresolve
    rfl

/-- A call with a single creation creates by name. -/
theorem execute_singleCreation {user leaf : String} {d : Char} {b : Backend} {parent : Option Listing}
    (hleaf : leaf ≠ "") (hfree : d ∉ leaf.toList)
    (hparent : ∀ m ∈ parent, findById? (b.store.list user) m.id.render = some m ∧ m.path.user = user ∧
      Mailbox.Canonical d m.path.name.toList) (key callId : String) :
    let created := createByName ⟨user, d⟩ (nameInside d parent leaf) b.store
    outcome (Methods.mailboxMethods.execute ⟨"setMailboxes", singleCreation key leaf parent, callId⟩
        ⟨user, d⟩) b =
      (⟨"mailboxesSet", .object [("accountId", .string user),
        ("created", .object (membersOf (·.isCreated) [(key, .ofReply created.1)])),
        ("notCreated", .object (membersOf (!·.isCreated) [(key, .ofReply created.1)]))], callId⟩,
        { b with store := created.2 }) := by
  intro created
  have hfind : Methods.mailboxMethods.find? "setMailboxes" = some setMailboxes := rfl
  have hlisted : ∀ m ∈ parent, parentsIn ⟨user, d⟩ [(key, ⟨leaf, parent.map (·.id.render)⟩)] b.store =
      b.store.list user := by
    rintro m hm
    rw [Option.mem_def.mp hm]
    rfl
  have hpath := creationPath_eq (parentsIn ⟨user, d⟩ [(key, ⟨leaf, parent.map (·.id.render)⟩)] b.store)
    hleaf hfree fun m hm => by
      rw [hlisted m hm]
      exact hparent m hm
  rw [outcome_execute, outcome_call, hfind]
  dsimp only
  rw [process_setMailboxes, argumentsOf_singleCreation]
  dsimp only [outcomesIn]
  rw [outcomeIn_eq hpath]
  dsimp only
  rw [creationValue_eq user (List.pairwise_singleton _ _)]
  rfl

/-- With fewer than `2 ^ 32` mailboxes in the store, every listed one is found by its number. -/
theorem findById?_of_mem {s : Store} {user : String} (h : Store.Sound s)
    (hfew : s.entries.length < 2 ^ 32) {m : Listing} (hm : m ∈ s.list user) :
    findById? (s.list user) m.id.render = some m := by
  unfold findById?
  cases hfind : (s.list user).find? fun n => n.id.render == m.id.render with
  | none =>
    have hnone := List.find?_eq_none.mp hfind m hm
    simp at hnone
  | some n =>
    have hn := List.mem_of_find?_eq_some hfind
    have hrender : n.id.render = m.id.render := by simpa using List.find?_some hfind
    have hid : n.id = m.id := Mailbox.Id.render_injective hrender
    -- the numbers shown are those of the list
    have hids : ((s.list user).map (·.id)).Nodup := by
      have hshown : ((listed s.delimiter user s).map (·.id)).Nodup := nodup_ids h hfew
      rwa [listed, chooseViews, List.map_map] at hshown
    rw [List.inj_on_of_nodup_map hids hn hm hid]

end Jmap

/-! ## Every state -/

namespace Shared

open Account (defaultMailboxes)
open Jmap (membersOf)
open Json (Value)
open Mailbox (Canonical Listing Store nameInside)
open Service (Backend)
open Service.Backend

/-- A server that has nothing yet. -/
def empty (limit : Nat) (d : Char) : State := ⟨.empty limit d, fun _ _ => none⟩

/-- What holds in every state that can be reached: the store is sound, its names are canonical, and
every selected mailbox is there. -/
structure Reached (d : Char) (s : State) : Prop where
  sound : Store.Sound s.backend.store
  named : World.Named d s.backend.store
  opened : ∀ user k, Imap.Session.Open ⟨⟨user, d⟩, s.selected user k⟩ s.backend.store

variable {tokens : Http.Tokens} {s : State}

theorem reached_empty (limit : Nat) (d : Char) : Reached d (empty limit d) where
  sound := Store.Sound.empty limit d
  named := World.Named.empty limit d
  opened _ _ _ h := nomatch h

/-- An event without its session. -/
def Event.inWorld (s : State) : Event → World.Event
  | .request r => .request r
  | .command user k c => .command user (s.selected user k) c
  | .deliver path => .deliver path

theorem backend_respond (s : State) (e : Event) :
    (respond tokens s e).2.backend = World.step tokens s.backend (e.inWorld s) := by
  cases e with
  | request r =>
    show _ = (outcome ((Jmap.stages tokens .mailboxMethods).handler r) s.backend).2
    rw [Http.Stages.handler, outcome_map]
    rfl
  | command user k c => rfl
  | deliver path => rfl

theorem Reached.respond (hd : ∀ name ∈ defaultMailboxes, tokens.delimiter ∉ name.toList)
    (h : Reached tokens.delimiter s) (e : Event) :
    Reached tokens.delimiter (respond tokens s e).2 where
  sound := by
    rw [backend_respond]
    exact World.step_keeps (P := fun b => Store.Sound b.store) (fun c _ hb => World.sound_answer hb c)
      (fun p _ hb => hb.deliver p) h.sound _
  named := by
    rw [backend_respond]
    exact World.named_step hd _ h.named
  opened := by
    have hkept : ∀ user k, Imap.Session.Open ⟨⟨user, tokens.delimiter⟩, s.selected user k⟩
        (Shared.respond tokens s e).2.backend.store := fun user k selection hselected =>
      (keeps_respond tokens s e).contains (h.opened user k selection hselected)
    cases e with
    | request r => exact hkept
    | deliver path => exact hkept
    | command sender j c =>
      obtain ⟨after, news, line, state, hrun, hanswered⟩ := Imap.answered c (h.opened sender j)
      have hbackend : (Shared.respond tokens s (.command sender j c)).2.backend = state :=
        congrArg Prod.snd hrun
      have hselection : (s.backend.run (c.process ⟨⟨sender, tokens.delimiter⟩, s.selected sender j⟩)).1.1 =
          after := congrArg (·.1.1) hrun
      intro user k selection hselected
      rw [Shared.respond] at hselected
      dsimp only at hselected
      rw [hselection] at hselected
      by_cases hsame : user = sender ∧ k = j
      · obtain ⟨rfl, rfl⟩ := hsame
        rw [Function.update_self, Function.update_self] at hselected
        rw [hbackend]
        exact hanswered.isOpen (h.opened user k) selection hselected
      -- any other session has the selection that it had
      · refine hkept user k selection ?_
        rw [not_and_or] at hsame
        by_cases huser : user = sender
        · subst huser
          rwa [Function.update_self, Function.update_of_ne (by simpa using hsame)] at hselected
        · rwa [Function.update_of_ne huser] at hselected

theorem reached_run (hd : ∀ name ∈ defaultMailboxes, tokens.delimiter ∉ name.toList) (limit : Nat)
    (events : List Event) :
    Reached tokens.delimiter (run tokens events (empty limit tokens.delimiter)) := by
  suffices ∀ s, Reached tokens.delimiter s → Reached tokens.delimiter (run tokens events s) from
    this _ (reached_empty limit tokens.delimiter)
  induction events with
  | nil => exact fun s h => h
  | cons e events ih => exact fun s h => ih _ (h.respond hd e)

/-- The two answers match: the tagged line of a `CREATE`, which is one of four, and what a call shows of its
single creation. -/
structure Matches (tag key : String) (line : Imap.Tagged) (created notCreated : List (String × Value)) :
    Prop where
  created_iff : line.status = .ok ↔ (∃ id, created = [(key, .object [("id", .string id)])]) ∧ notCreated = []
  taken_iff : (line.status = .no ∧ line.reason.key = "MAILBOX_EXISTS") ↔ created = [] ∧
    ∃ text, notCreated = [(key, .object [("description", .string text), ("type", .string "mailboxExists")])]
  invalid_iff : (line.status ≠ .ok ∧ ¬ (line.status = .no ∧ line.reason.key = "MAILBOX_EXISTS")) ↔
    created = [] ∧ ∃ text,
      notCreated = [(key, .object [("description", .string text), ("type", .string "invalidArguments")])]
  sent : (line.status = .ok ∧ line.render = tag ++ " OK CREATE completed.") ∨
    (line.status = .no ∧ line.reason.key = "MAILBOX_EXISTS" ∧
      line.render = tag ++ " NO CREATE failed. Mailbox already exists.") ∨
    (line.status = .no ∧ line.reason.key ≠ "MAILBOX_EXISTS" ∧
      line.render = tag ++ " NO CREATE processing failed.") ∨
    (line.status = .bad ∧ line.render = tag ++ " BAD CREATE failed. Invalid mailbox name.")

section Refused

variable {tag key : String} {line : Imap.Tagged}

theorem matches_taken (text : String) (hno : line.status = .no) (hkey : line.reason.key = "MAILBOX_EXISTS")
    (hline : line.render = tag ++ " NO CREATE failed. Mailbox already exists.") :
    Matches tag key line [] [(key, Jmap.refusal "mailboxExists" text)] where
  created_iff := by simp [hno]
  taken_iff := by simp [hno, hkey, Jmap.refusal]
  invalid_iff := by simp [hno, hkey, Jmap.refusal]
  sent := Or.inr (Or.inl ⟨hno, hkey, hline⟩)

theorem matches_invalid (text : String) (hkey : line.reason.key ≠ "MAILBOX_EXISTS")
    (hline : (line.status = .no ∧ line.render = tag ++ " NO CREATE processing failed.") ∨
      (line.status = .bad ∧ line.render = tag ++ " BAD CREATE failed. Invalid mailbox name.")) :
    Matches tag key line [] [(key, Jmap.refusal "invalidArguments" text)] := by
  have hrefused : line.status ≠ .ok := by
    rcases hline with ⟨h, -⟩ | ⟨h, -⟩ <;> simp [h]
  refine ⟨by simp [hrefused], by simp [hkey, Jmap.refusal], by simp [hrefused, hkey, Jmap.refusal], ?_⟩
  rcases hline with ⟨hno, htext⟩ | hbad
  · exact Or.inr (Or.inr (Or.inl ⟨hno, hkey, htext⟩))
  · exact Or.inr (Or.inr (Or.inr hbad))

end Refused

/-- Whatever a creation by name comes to, the two say so in matching ways. -/
theorem matches_createdLine (tag name key : String) (reply : Except Mailbox.Error Mailbox.Id) :
    Matches tag key (Imap.createdLine tag name reply) (membersOf (·.isCreated) [(key, .ofReply reply)])
      (membersOf (!·.isCreated) [(key, .ofReply reply)]) := by
  have htext := Imap.render_createdLine tag name reply
  cases reply with
  | ok id =>
    have hok : (Imap.createdLine tag name (.ok id)).status = .ok := rfl
    have hcreated : membersOf (·.isCreated) [(key, .ofReply (.ok id))] =
        [(key, .object [("id", .string (toString id.number.toNat))])] := rfl
    have hothers : membersOf (!·.isCreated) [(key, .ofReply (.ok id))] = [] := rfl
    rw [hcreated, hothers]
    exact ⟨by simp [hok], by simp [hok], by simp [hok], Or.inl ⟨hok, htext⟩⟩
  | error cause =>
    have hcreated : membersOf (·.isCreated) [(key, .ofReply (.error cause))] = [] := by cases cause <;> rfl
    have hothers : ∀ type, Jmap.Outcome.ofReply (.error cause) = .notCreated type cause.message →
        membersOf (!·.isCreated) [(key, .ofReply (.error cause))] = [(key, Jmap.refusal type cause.message)] :=
      fun type h => h ▸ Jmap.membersOf_notCreated key type cause.message
    rw [hcreated]
    cases cause with
    | alreadyExists path =>
      rw [hothers "mailboxExists" rfl]
      exact matches_taken _ rfl rfl htext
    | nameTooLong given limit =>
      rw [hothers "invalidArguments" rfl]
      exact matches_invalid _ (show ¬ Imap.Reason.key .badMailboxName = _ by decide) (Or.inr ⟨rfl, htext⟩)
    | _ =>
      rw [hothers "invalidArguments" rfl]
      exact matches_invalid _ (show ¬ Imap.Reason.key .processingFailed = _ by decide) (Or.inl ⟨rfl, htext⟩)

/-- **`CREATE` and `setMailboxes` agree**, in every state that requests, commands and deliveries lead to.
Take a name of one component, and no parent or a mailbox of the user; the whole name is that of the parent,
the delimiter and the component. A `CREATE` of the whole name, in any session of the user, and a call with
the single creation of the component inside the parent leave the same store. The line is OK where the
creation is answered as created, with the number of a mailbox that was not there and is now under the path
of the name; it is NO for a mailbox that exists where the creation is answered so; and any other NO or BAD
where the creation is answered as invalid. The call knows a parent by its number: below `2 ^ 32` mailboxes
every mailbox is found by its own. -/
theorem creations_agree (limit : Nat) (tokens : Http.Tokens)
    (hd : ∀ name ∈ defaultMailboxes, tokens.delimiter ∉ name.toList) (events : List Event)
    (user leaf : String) (hleaf : leaf ≠ "") (hfree : tokens.delimiter ∉ leaf.toList)
    (parent : Option Listing)
    (hparent : ∀ m ∈ parent,
      m ∈ (run tokens events (empty limit tokens.delimiter)).backend.store.list user ∧
      Jmap.findById? ((run tokens events (empty limit tokens.delimiter)).backend.store.list user)
        m.id.render = some m)
    (k : Nat) (tag key callId : String) :
    let s := run tokens events (empty limit tokens.delimiter)
    let name := nameInside tokens.delimiter parent leaf
    let command := respond tokens s (.command user k ⟨tag, .create, name⟩)
    let call := s.backend.run (Jmap.Methods.mailboxMethods.execute
      ⟨"setMailboxes", Jmap.singleCreation key leaf parent, callId⟩ ⟨user, tokens.delimiter⟩)
    command.2.backend = call.2.1 ∧
    (∃ news line created notCreated, command.1 = .lines (news ++ [.tagged line]) ∧
      news.filterMap Imap.Response.tagged? = [] ∧ line.tag = tag ∧
      call.1 = ⟨"mailboxesSet", .object [("accountId", .string user), ("created", .object created),
        ("notCreated", .object notCreated)], callId⟩ ∧
      Matches tag key line created notCreated ∧
      ∀ id, created = [(key, .object [("id", .string id)])] →
        ∃ path n, Mailbox.resolve ⟨user, tokens.delimiter⟩ name = .ok path ∧
          ¬ s.backend.store.contains path = true ∧
          call.2.1.store.entryAt? path = some ⟨⟨n⟩, 0, 1⟩ ∧ toString n.toNat = id) ∧
    (s.backend.store.entries.length < 2 ^ 32 → ∀ m ∈ s.backend.store.list user,
      Jmap.findById? (s.backend.store.list user) m.id.render = some m) := by
  intro s name command call
  have hs : Reached tokens.delimiter s := reached_run hd limit events
  obtain ⟨after, news, hcommand, hnews⟩ := Imap.process_create tag name (hs.opened user k)
  have hinside : ∀ m ∈ parent, Jmap.findById? (s.backend.store.list user) m.id.render = some m ∧
      m.path.user = user ∧ Canonical tokens.delimiter m.path.name.toList := by
    intro m hm
    obtain ⟨hlisted, hfind⟩ := hparent m hm
    exact ⟨hfind, (hs.sound.mem_list_iff.mp hlisted).1,
      hs.named.canonical _ (Store.contains_of_mem_list hlisted)⟩
  have hcall := Jmap.execute_singleCreation hleaf hfree hinside key callId
  have hstate : call.2.1 = _ := congrArg Prod.snd hcall
  have hlines : command.1 = .lines _ :=
    congrArg (fun done : (Imap.Session × List Imap.Response) × Backend => Answer.lines done.1.2) hcommand
  refine ⟨(congrArg Prod.snd hcommand).trans hstate.symm, ?_, ?_⟩
  · refine ⟨news, _, _, _, hlines, hnews, Imap.tag_createdLine tag name _, congrArg Prod.fst hcall,
      matches_createdLine tag name key _, ?_⟩
    intro id hid
    rw [hstate]
    obtain ⟨made, hmade, hshown⟩ := Jmap.ofReply_of_membersOf hid
    obtain ⟨path, hpath, hnew, hentry⟩ := Mailbox.createByName_ok hmade
    exact ⟨path, made.number, hpath, hnew, hentry, hshown⟩
  · exact fun hfew m hm => Jmap.findById?_of_mem hs.sound hfew hm

/-- A mailbox inside the inbox, from a session that has the inbox selected and has not been told of the
message in it. -/
theorem creations_agree_inside_inbox :
    let tokens := Http.Tokens.empty '.'
    let events : List Event := [.command "ann" 0 ⟨"a1", .create, "inbox"⟩,
      .command "ann" 0 ⟨"a2", .select, "INBOX"⟩, .deliver ⟨"ann", "INBOX"⟩]
    let s := run tokens events (empty 255 tokens.delimiter)
    let parent : Option Listing := some ⟨⟨1⟩, ⟨"ann", "INBOX"⟩, 1⟩
    let create : Event := .command "ann" 0 ⟨"a3", .create, nameInside tokens.delimiter parent "Plans"⟩
    let call : Jmap.Invocation := ⟨"setMailboxes", Jmap.singleCreation "k" "Plans" parent, "c"⟩
    (∀ name ∈ defaultMailboxes, tokens.delimiter ∉ name.toList) ∧
    "Plans" ≠ "" ∧ tokens.delimiter ∉ "Plans".toList ∧
    (∀ m ∈ parent, m ∈ s.backend.store.list "ann" ∧
      Jmap.findById? (s.backend.store.list "ann") m.id.render = some m) ∧
    (respond tokens s create).2.backend.store.contains ⟨"ann", "INBOX.Plans"⟩ = true ∧
    (respond tokens s create).2.backend =
      (s.backend.run (Jmap.Methods.mailboxMethods.execute call ⟨"ann", tokens.delimiter⟩)).2.1 := by
  intro tokens events s parent create call
  have hd : ∀ name ∈ defaultMailboxes, tokens.delimiter ∉ name.toList := by decide
  have hfree : tokens.delimiter ∉ "Plans".toList := by decide
  have hparent : ∀ m ∈ parent, m ∈ s.backend.store.list "ann" ∧
      Jmap.findById? (s.backend.store.list "ann") m.id.render = some m := by
    intro m hm
    obtain rfl : _ = m := Option.some.inj hm
    decide +kernel
  have hagree := creations_agree 255 tokens hd events "ann" "Plans" (by decide) hfree parent hparent 0
    "a3" "k" "c"
  refine ⟨hd, by decide, hfree, hparent, by decide +kernel, ?_⟩
  simpa only [s, create, call] using hagree.1

end Shared

end MailServer
