import MailServer.Proofs.Command
import MailServer.Proofs.Interleaving

/-!
# Requests of many users at once

Provisioning runs, `setMailboxes` calls and `CREATE` commands of any users work on one store, each a script
of its own, and their moves come in any order. Each of them looks first and acts later, so that others may
have come in between. What they rely on is that a mailbox, once it is there, stays there under its number,
and that the store alone tells who has created it.

* `Account.traces_provisionMailboxes`, `Jmap.traces_creating`, `Imap.Command.traces_process_create` — what
  each of the three does, whatever the others do.
* `Concurrent.Task` — one of them, with its script and what it has been told.
* `Concurrent.Orderly`, `Concurrent.tasks_orderly` — what holds in every interleaving.
-/

namespace MailServer

/-! ## Provisioning -/

namespace Account

open Mailbox (Path)
open Service (Attempt Script Move made made_concat)

variable {limit : Nat} {caller : Caller} {moves : List Move}

/-- The event that tells of a default mailbox that was created. -/
def provisionedEvent (p : Path) : Log.Event :=
  ⟨.provision, .info, "default mailbox provisioned", [("path", p.render)]⟩

/-- The event is about this mailbox, among those of its user. -/
theorem provisionedEvent_inj {p q : Path} (huser : p.user = q.user)
    (h : provisionedEvent p = provisionedEvent q) : p = q := by
  obtain ⟨user, name⟩ := p
  obtain ⟨user', name'⟩ := q
  obtain rfl : user = user' := huser
  have hrender : Path.render ⟨user, name⟩ = Path.render ⟨user, name'⟩ := by
    simpa [provisionedEvent] using h
  have hname : name = name' := by
    unfold Path.render at hrender
    rw [← String.toList_inj] at hrender ⊢
    simpa using hrender
  rw [hname]

/-- The move is the event that tells of the mailbox. -/
def announces (p : Path) : Move → Bool
  | .noted (.logged event) => event = provisionedEvent p
  | _ => false

/-- How often such an event was left. -/
def announced (p : Path) (moves : List Move) : Nat := moves.countP (announces p)

@[simp] theorem announced_concat (p : Path) (moves : List Move) (m : Move) :
    announced p (moves ++ [m]) = announced p moves + if announces p m then 1 else 0 := by
  rw [announced, List.countP_append, List.countP_singleton]
  rfl

/-- The mailboxes of a user are announced only when they were created. -/
def Announced (user : String) (moves : List Move) : Prop :=
  ∀ p, p.user = user → announced p moves ≤ made p moves

theorem Announced.called {user : String} (h : Announced user moves) (c : Service.Call) (reply : c.Reply) :
    Announced user (moves ++ [.called c reply]) := by
  intro p hp
  rw [announced_concat, made_concat]
  exact (h p hp).trans (Nat.le_add_right _ _)

/-- A mailbox may be announced when it has just been created. -/
theorem Announced.created {q : Path} (h : Announced q.user moves) (id : Mailbox.Id) :
    Announced q.user (moves ++ [.called (.createMailbox q) (.ok id)] ++
      [.noted (.logged (provisionedEvent q))]) := by
  intro p hp
  have hbefore := h p hp
  simp only [announced_concat, made_concat, announces, Move.makes, decide_eq_true_eq]
  by_cases hpq : q = p
  · subst hpq
    simpa using hbefore
  · have hother : ¬ provisionedEvent q = provisionedEvent p := fun heq =>
      hpq (provisionedEvent_inj hp.symm heq)
    simpa [hpq, hother] using hbefore

/-- One of the moves tells that the mailbox is there. -/
def Shown (p : Path) (moves : List Move) : Prop :=
  ∃ m ∈ moves, ∀ s, m.Holds s → s.contains p = true

theorem Shown.mono {p : Path} {after : List Move} (h : Shown p moves) (hafter : moves <+: after) :
    Shown p after := by
  obtain ⟨m, hm, hshows⟩ := h
  exact ⟨m, hafter.subset hm, hshows⟩

theorem shown_concat {p : Path} {m : Move} (h : ∀ s, m.Holds s → s.contains p = true) :
    Shown p (moves ++ [m]) := ⟨m, by simp, h⟩

theorem shown_created {p : Path} (id : Mailbox.Id) :
    Shown p (moves ++ [.called (.createMailbox p) (.ok id)]) := by
  refine shown_concat fun s h => ?_
  obtain ⟨e, he, -⟩ := h
  exact Mailbox.Store.contains_iff.mpr ⟨e, he⟩

/-- A default mailbox is found or created, or someone else has been faster; in any case it is there. -/
theorem traces_provisionMailbox {name : String} (hshort : name.length ≤ limit)
    (hmoves : Announced caller.user moves) :
    Attempt.Traces limit (Announced caller.user) (fun _ _ => False)
      (fun _ after => Shown ⟨caller.user, name⟩ after) (provisionMailbox caller name) moves := by
  unfold provisionMailbox
  refine Attempt.Traces.bind (Attempt.traces_lift
    (Script.traces_ask (.mailboxExists ⟨caller.user, name⟩) hmoves fun _ _ => hmoves.called _ _)) ?_
  rintro known _ hlooked ⟨hknown, rfl⟩
  cases known with
  | error e => exact hknown.elim
  | ok there =>
    cases there with
    | true => exact Attempt.traces_pure hlooked (shown_concat fun _ h => h)
    | false =>
      refine Attempt.Traces.bind (Attempt.traces_lift
        (Script.traces_ask (.createMailbox ⟨caller.user, name⟩) hlooked fun _ _ => hlooked.called _ _)) ?_
      rintro reply _ hasked ⟨hreply, rfl⟩
      cases reply with
      | ok id =>
        have hevent := hlooked.created (q := ⟨caller.user, name⟩) id
        refine Attempt.traces_lift ((Script.traces_note _ hasked hevent).mono ?_)
        rintro _ _ rfl
        exact (shown_created id).mono (List.prefix_append _ _)
      | error e =>
        rcases hreply with ⟨other, rfl⟩ | ⟨hlong, -⟩
        · exact Attempt.traces_pure hasked (shown_concat fun _ h => h)
        · exact absurd hshort (not_le.mpr hlong)

/-- Provisioning shows all default mailboxes. Induction on their names. -/
theorem traces_provisionMailboxes (hshort : ∀ name ∈ defaultMailboxes, name.length ≤ limit) :
    Attempt.Traces limit (Announced caller.user) (fun _ _ => False)
      (fun _ after => ∀ name ∈ defaultMailboxes, Shown ⟨caller.user, name⟩ after)
      (provisionMailboxes caller) [] := by
  have hnone : Announced caller.user [] := fun _ _ => Nat.le_refl 0
  unfold provisionMailboxes
  generalize ([] : List Move) = moves at hnone
  generalize defaultMailboxes = names at hshort ⊢
  induction names generalizing moves with
  | nil => exact Attempt.traces_pure hnone (by simp)
  | cons name names ih =>
    obtain ⟨hname, hnames⟩ := List.forall_mem_cons.mp hshort
    refine (traces_provisionMailbox hname hnone).bind fun _ after hafter hshown => ?_
    exact (ih after hafter hnames).extends.mono fun _ _ hrest =>
      List.forall_mem_cons.mpr ⟨hshown.mono hrest.2, hrest.1⟩

/-- A look, a creation and an event. -/
theorem within_provisionMailbox (caller : Caller) (name : String) :
    Script.Within (provisionMailbox caller name).run 3 := by
  refine .call fun known => ?_
  cases known with
  | error e => exact .done _ _
  | ok there =>
    cases there with
    | true => exact .done _ _
    | false =>
      refine .call fun reply => ?_
      cases reply with
      | ok id => exact .note _ (.done _ _)
      | error e => cases e <;> exact .done _ _

theorem within_provisionMailboxes (caller : Caller) :
    Script.Within (provisionMailboxes caller).run (3 * defaultMailboxes.length) := by
  unfold provisionMailboxes
  generalize defaultMailboxes = names
  induction names with
  | nil => exact .done _ _
  | cons name names ih =>
    rw [List.length_cons, Nat.mul_succ, Nat.add_comm]
    exact Script.Within.attempt (within_provisionMailbox caller name) fun _ => ih

end Account

/-! ## setMailboxes -/

namespace Jmap

open Json (Value)
open Mailbox (Listing Path)
open Service (Attempt Move Script made made_concat)

variable {limit : Nat} {caller : Caller} {moves : List Move}

/-- What a call has done: the creations that it was asked for, the mailboxes among which it has looked for
parents, and what became of the creations. -/
structure Performed where
  creations : List (String × Creation)
  existing : List Listing
  outcomes : List (String × Outcome)

/-- Creates mailboxes of the caller, and tells all about it. -/
def creating (arguments : Value) (caller : Caller) : Attempt MethodError Performed := do
  let creations ← argumentsOf creationArguments arguments
  let existing ← parentsOf caller creations
  let outcomes ← createAll caller existing creations
  pure ⟨creations, existing, outcomes⟩

/-- The value of the method shows the outcomes. -/
theorem process_setMailboxes_eq_map (arguments : Value) (caller : Caller) :
    setMailboxes.process arguments caller =
      (fun done => creationValue caller.user done.outcomes) <$> creating arguments caller := by
  simp [setMailboxes, creating]

/-- How many of the creations are told to have created the mailbox. -/
def told (caller : Caller) (existing : List Listing) (p : Path) (creations : List (String × Creation))
    (outcomes : List (String × Outcome)) : Nat :=
  (creations.zip outcomes).countP fun (c, o) => o.2.isCreated && creationPath caller existing c.2 = .ok p

/-- The mailboxes in the listing of a call; none before it. -/
def found (moves : List Move) : List Listing :=
  (moves.findSome? fun
    | .called (.listMailboxes _) (.ok mailboxes) => some mailboxes
    | _ => none).getD []

/-- A mailbox in the listing of a call is in the reply to one of its calls. -/
theorem mem_found {m : Listing} (h : m ∈ found moves) :
    ∃ user mailboxes, .called (.listMailboxes user) (.ok mailboxes) ∈ moves ∧ m ∈ mailboxes := by
  unfold found at h
  cases hfirst : moves.findSome? _ with
  | none =>
    rw [hfirst] at h
    exact absurd h List.not_mem_nil
  | some mailboxes =>
    rw [hfirst] at h
    obtain ⟨move, hmove, hlisted⟩ := List.exists_of_findSome?_eq_some hfirst
    split at hlisted
    · cases hlisted
      exact ⟨_, _, hmove, h⟩
    · cases hlisted

/-- A creation adds nothing to the listing. -/
theorem found_concat_create (moves : List Move) (p : Path) (reply : Except Mailbox.Error Mailbox.Id) :
    found (moves ++ [.called (.createMailbox p) reply]) = found moves := by
  simp [found, List.findSome?_append]

/-- A creation with a parent is for the mailbox inside it. -/
theorem creationPath_child {existing : List Listing} {c : Creation} {p : Path}
    (h : creationPath caller existing c = .ok p) {id : String} (hid : c.parentId = some id) :
    ∃ m, findById? existing id = some m ∧ p = m.path.child c.name caller.delimiter := by
  unfold creationPath at h
  split at h
  · cases h
  · rw [hid] at h
    dsimp only at h
    split at h
    · rename_i m hfind
      cases h
      exact ⟨m, hfind, rfl⟩
    · cases h

/-- Every mailbox that the call has asked the store for is the one of a creation, with the parent looked
for among the mailboxes listed. -/
def Requested (caller : Caller) (creations : List (String × Creation)) (moves : List Move) : Prop :=
  ∀ p reply, .called (.createMailbox p) reply ∈ moves →
    ∃ c ∈ creations, creationPath caller (found moves) c.2 = .ok p

section Requested

variable {creations : List (String × Creation)}

theorem Requested.concat_create (h : Requested caller creations moves) {c : String × Creation}
    (hc : c ∈ creations) {p : Path} (hpath : creationPath caller (found moves) c.2 = .ok p)
    (reply : Except Mailbox.Error Mailbox.Id) :
    Requested caller creations (moves ++ [.called (.createMailbox p) reply]) := by
  intro q other hmem
  rw [found_concat_create]
  rcases List.mem_append.mp hmem with hmem | hmem
  · exact h q other hmem
  · cases List.mem_singleton.mp hmem
    exact ⟨c, hc, hpath⟩

/-- One creation: what is told of it was made by it. -/
theorem traces_create {c : String × Creation} (hc : c ∈ creations)
    (hmoves : Requested caller creations moves) :
    Attempt.Traces limit (Requested caller creations) (fun _ _ => True)
      (fun outcome after => found after = found moves ∧ ∀ id p,
        told caller (found moves) p [c] [(id, outcome)] + made p moves ≤ made p after)
      (create caller (found moves) c.2) moves := by
  have huntold : ∀ (outcome : Outcome) (after : List Move), outcome.isCreated = false → moves <+: after →
      ∀ id p, told caller (found moves) p [c] [(id, outcome)] + made p moves ≤ made p after := by
    intro outcome after houtcome hafter id p
    simpa [told, houtcome] using Service.made_mono hafter
  unfold create
  split
  · exact Attempt.traces_pure hmoves ⟨rfl, huntold _ _ rfl (List.prefix_refl _)⟩
  · rename_i path hpath
    refine Attempt.Traces.bind (Attempt.traces_lift
      (Script.traces_ask (.createMailbox path) hmoves fun reply _ => hmoves.concat_create hc hpath reply)) ?_
    rintro reply _ hasked ⟨-, rfl⟩
    have hfound := found_concat_create moves path reply
    cases reply with
    | ok id =>
      refine Attempt.traces_pure hasked ⟨hfound, fun id p => ?_⟩
      rw [made_concat]
      by_cases hp : path = p <;> simp [told, Outcome.isCreated, hpath, Move.makes, hp, Nat.add_comm]
    | error cause =>
      have hnot := fun outcome houtcome => huntold outcome _ houtcome (List.prefix_append moves
        [Move.called (.createMailbox path) (.error cause)])
      cases cause with
      | alreadyExists path => exact Attempt.traces_pure hasked ⟨hfound, hnot _ rfl⟩
      | nameTooLong name limit => exact Attempt.traces_pure hasked ⟨hfound, hnot _ rfl⟩
      | invalidName name reason => exact Attempt.traces_pure hasked ⟨hfound, hnot _ rfl⟩
      | _ => exact Attempt.traces_throw hasked trivial

/-- All creations of a call. Induction on those that are left. -/
theorem traces_createAll {rest : List (String × Creation)} (hrest : ∀ c ∈ rest, c ∈ creations)
    (hmoves : Requested caller creations moves) :
    Attempt.Traces limit (Requested caller creations) (fun _ _ => True)
      (fun outcomes after => ∀ p, told caller (found moves) p rest outcomes + made p moves ≤ made p after)
      (createAll caller (found moves) rest) moves := by
  induction rest generalizing moves with
  | nil => exact Attempt.traces_pure hmoves fun p => by simp [told]
  | cons c rest ih =>
    obtain ⟨hc, hrest⟩ := List.forall_mem_cons.mp hrest
    refine (traces_create hc hmoves).bind fun outcome between hbetween hfirst => ?_
    obtain ⟨hfound, hfirst⟩ := hfirst
    have hothers := ih hrest hbetween
    rw [hfound] at hothers
    refine hothers.bind fun outcomes after hafter hlast => Attempt.traces_pure hafter fun p => ?_
    have hone := hfirst c.1 p
    have hall := hlast p
    simp only [told, List.zip_cons_cons, List.zip_nil_right, List.countP_cons, List.countP_nil] at hone hall ⊢
    omega

end Requested

/-- The creations that a call is asked for; none where the arguments are not the method's. -/
def askedFor (arguments : Value) : List (String × Creation) :=
  match argumentsOf creationArguments arguments with
  | .ok creations => creations
  | .error _ => []

theorem requested_nil (caller : Caller) (creations : List (String × Creation)) :
    Requested caller creations [] := fun _ _ h => nomatch h

theorem traces_parentsOf (creations : List (String × Creation)) :
    Attempt.Traces limit (Requested caller creations) (fun _ _ => True)
      (fun existing after => existing = found after) (parentsOf caller creations) [] := by
  have hnone := requested_nil caller creations
  unfold parentsOf
  split
  · refine Attempt.Traces.bind (Attempt.traces_lift
      (Script.traces_ask (.listMailboxes caller.user) hnone fun reply _ => ?_)) ?_
    · intro p other hmem
      cases List.mem_singleton.mp hmem
    · rintro reply _ hasked ⟨hreply, rfl⟩
      cases reply with
      | ok mailboxes => exact Attempt.traces_pure hasked rfl
      | error cause => exact hreply.elim
  · exact Attempt.traces_pure hnone rfl

/-- **A call** asks for the mailboxes of its creations, and tells of no mailbox that it did not make. -/
theorem traces_creating (arguments : Value) :
    Attempt.Traces limit (Requested caller (askedFor arguments)) (fun _ _ => True)
      (fun done after => ∀ p, told caller done.existing p done.creations done.outcomes ≤ made p after)
      (creating arguments caller) [] := by
  unfold creating askedFor
  cases argumentsOf creationArguments arguments with
  | error cause => exact Attempt.traces_throw (requested_nil caller _) trivial
  | ok creations =>
    refine (traces_parentsOf creations).bind fun existing moves hmoves hexisting => ?_
    subst hexisting
    refine (traces_createAll (fun _ hc => hc) hmoves).bind fun outcomes after hafter htold => ?_
    exact Attempt.traces_pure hafter fun p => (Nat.le_add_right _ _).trans (htold p)

end Jmap

/-! ## CREATE -/

namespace Imap

open Mailbox (Path)
open Service (Attempt Move Script made)

variable {limit : Nat} {moves : List Move}

/-- How many lines tell that the mailbox of the name was created. -/
def told (caller : Caller) (name : String) (p : Path) (lines : List Response) : Nat :=
  if Mailbox.resolve caller name = .ok p then
    (lines.filterMap Response.tagged?).countP fun line => line.status = .ok
  else 0

/-- A look at the selected mailbox tells of nothing that was created. -/
theorem Session.traces_poll (s : Session) :
    Attempt.Traces limit (fun _ => True) (fun _ _ => True)
      (fun polled _ => polled.2.filterMap Response.tagged? = []) s.poll moves := by
  unfold poll
  split
  · exact Attempt.traces_pure trivial rfl
  · rename_i selection _
    have hasked : Attempt.Traces limit (fun _ => True) (fun _ _ => True) (fun _ _ => True)
        (ExceptT.mk (Service.ask (.status selection.path))) moves := by
      refine Attempt.traces_mk ((Script.traces_ask (.status selection.path) trivial
        fun _ _ => trivial).mono fun reply _ _ => ?_)
      cases reply <;> trivial
    refine hasked.bind fun status after _ _ => ?_
    split <;> exact Attempt.traces_pure trivial rfl

namespace Command

theorem traces_create (tag name : String) (s : Session) :
    Attempt.Traces limit (fun _ => True) (fun _ _ => True)
      (fun done after => ∀ p, told s.caller name p done.2 ≤ made p after)
      (create ⟨tag, .create, name⟩ s) [] := by
  have hresolved : Attempt.Traces limit (fun _ => True) (fun _ _ => True)
      (fun path after => Mailbox.resolve s.caller name = .ok path ∧ after = [])
      (liftM (Mailbox.resolve s.caller name) : Attempt Mailbox.Error Path) [] := by
    refine Attempt.traces_liftExcept trivial ?_
    cases Mailbox.resolve s.caller name with
    | error cause => trivial
    | ok path => exact ⟨rfl, rfl⟩
  have hcreated : ∀ path, Attempt.Traces limit (fun _ => True) (fun _ _ => True)
      (fun _ after => made path after = 1) (ExceptT.mk (Service.ask (.createMailbox path))) [] := by
    intro path
    refine Attempt.traces_mk ((Script.traces_ask (.createMailbox path) trivial fun _ _ => trivial).mono ?_)
    rintro reply _ ⟨-, rfl⟩
    cases reply with
    | error cause => trivial
    | ok id =>
      show made path ([] ++ [Move.called (.createMailbox path) (.ok id)]) = 1
      simp [made, Move.makes]
  unfold create
  refine hresolved.bind ?_
  rintro path _ - ⟨hresolve, rfl⟩
  refine (hcreated path).bind fun id between _ hmade => ?_
  refine s.traces_poll.extends.bind fun polled after _ hpolled => Attempt.traces_pure trivial fun p => ?_
  obtain ⟨hnews, hafter⟩ := hpolled
  unfold told
  split
  · rename_i hp
    obtain rfl : path = p := Except.ok.inj (hresolve.symm.trans hp)
    rw [List.filterMap_append, hnews]
    exact hmade.symm.le.trans (Service.made_mono hafter)
  · exact Nat.zero_le _

/-- **A command** that is answered with OK has made the mailbox. -/
theorem traces_process_create (tag name : String) (s : Session) :
    (process ⟨tag, .create, name⟩ s).Traces limit (fun _ => True)
      (fun done after => ∀ p, told s.caller name p done.2 ≤ made p after) [] := by
  unfold process
  refine Script.Traces.bind (traces_create tag name s) fun result after _ hresult => ?_
  cases result with
  | ok done => exact Script.traces_pure trivial hresult
  | error cause =>
    refine (Script.traces_note _ trivial trivial).bind fun _ _ _ _ => Script.traces_pure trivial fun p => ?_
    -- an error is not answered with OK
    have hrefused : told s.caller name p [.tagged ((createRules.resolve cause
        (context ⟨tag, .create, name⟩)).action.line tag "CREATE")] = 0 := by
      have hstatus := status_of_rules .create cause (context ⟨tag, .create, name⟩)
      unfold told
      split
      · refine List.countP_eq_zero.mpr fun line hline => ?_
        cases List.mem_singleton.mp hline
        exact fun h => hstatus (of_decide_eq_true h)
      · rfl
    exact hrefused.le.trans (Nat.zero_le _)

end Command

end Imap

/-! ## All of them -/

namespace Concurrent

open Account (defaultMailboxes)
open Mailbox (Path Store)
open Service (Joint Move Script made)

/-! ### Tasks -/

/-- What users have a server do. -/
inductive Task where
  | provision (caller : Caller)
  | setMailboxes (caller : Caller) (arguments : Json.Value)
  | create (session : Imap.Session) (tag name : String)

/-- What a task ends with. -/
inductive Ended where
  | provisioned (result : Except Account.Error Unit)
  | called (result : Except Jmap.MethodError Jmap.Performed)
  | answered (session : Imap.Session) (lines : List Imap.Response)

namespace Task

/-- A task as a script. A call tells all that it has done, of which the value of the method shows the
outcomes. -/
def script : Task → Script Ended
  | provision caller => .provisioned <$> (Account.provisionMailboxes caller).run
  | setMailboxes caller arguments => .called <$> (Jmap.creating arguments caller).run
  | create session tag name =>
    (fun done => .answered done.1 done.2) <$> Imap.Command.process ⟨tag, .create, name⟩ session

/-- How often a task has been told that it created the mailbox: by the events of provisioning, which are
about mailboxes of the user, by the outcomes of a call, and by the lines of a command. -/
def told (p : Path) (moves : List Move) : Task → Script Ended → Nat
  | provision caller, _ => if p.user = caller.user then Account.announced p moves else 0
  | setMailboxes caller _, .done (.called (.ok done)) =>
    Jmap.told caller done.existing p done.creations done.outcomes
  | create session _ name, .done (.answered _ lines) => Imap.told session.caller name p lines
  | _, _ => 0

/-- What holds of the moves of a task at all times. -/
def Kept : Task → List Move → Prop
  | provision caller, moves => Account.Announced caller.user moves
  | setMailboxes caller arguments, moves => Jmap.Requested caller (Jmap.askedFor arguments) moves
  | create _ _ _, _ => True

/-- What holds of the moves of a task and of what it has ended with. -/
def Done : Task → Ended → List Move → Prop
  | provision caller, .provisioned result, moves =>
    result = .ok () ∧ ∀ name ∈ defaultMailboxes, Account.Shown ⟨caller.user, name⟩ moves
  | setMailboxes caller _, .called result, moves => ∀ done, result = .ok done →
    ∀ p, Jmap.told caller done.existing p done.creations done.outcomes ≤ made p moves
  | create session _ name, .answered _ lines, moves =>
    ∀ p, Imap.told session.caller name p lines ≤ made p moves
  | _, _, _ => False

variable {limit : Nat}

/-- Six characters are enough for the default mailboxes. -/
theorem length_default : ∀ name ∈ defaultMailboxes, name.length ≤ 6 := by decide

theorem traces (hlimit : 6 ≤ limit) (task : Task) : task.script.Traces limit task.Kept task.Done [] := by
  cases task with
  | provision caller =>
    refine Script.Traces.map (Account.traces_provisionMailboxes fun name hname =>
      (length_default name hname).trans hlimit) fun result moves hresult => ?_
    cases result with
    | ok _ => exact ⟨rfl, hresult⟩
    | error cause => exact hresult.elim
  | setMailboxes caller arguments =>
    refine Script.Traces.map (Jmap.traces_creating arguments) fun result moves hresult => ?_
    rintro done rfl
    exact hresult
  | create session tag name =>
    exact Script.Traces.map (Imap.Command.traces_process_create tag name session) fun _ _ hresult => hresult

/-- A task is told only of mailboxes that it has made. -/
theorem told_le_made {task : Task} {rest : Script Ended} {moves : List Move}
    (h : rest.Traces limit task.Kept task.Done moves) (p : Path) : task.told p moves rest ≤ made p moves := by
  unfold told
  split
  · split
    · rename_i hp
      exact h.invariant p hp
    · exact Nat.zero_le _
  · exact h.2 _ rfl p
  · exact h.2 p
  · exact Nat.zero_le _

end Task

/-! ### Interleavings -/

/-- What holds of tasks on one store after they have made moves in the order of a schedule. -/
structure Orderly {ι : Type} [DecidableEq ι] (tasks : ι → Task) (schedule : List ι) (s : Joint ι Ended) :
    Prop where
  /-- Provisioning ends when it has had a turn for a look, a creation and an event of each default
  mailbox. -/
  ends : ∀ i caller, tasks i = .provision caller → 3 * defaultMailboxes.length ≤ schedule.count i →
    ∃ ended, s.rest i = .done ended
  /-- Where it has ended, it has succeeded, and all default mailboxes of the user are there. -/
  provisioned : ∀ i caller ended, tasks i = .provision caller → s.rest i = .done ended →
    ended = .provisioned (.ok ()) ∧
      ∀ name ∈ defaultMailboxes, s.backend.store.contains ⟨caller.user, name⟩ = true
  /-- Of a mailbox one task at most has been told that it created it, and it has been told once. -/
  told_once : ∀ i p, (tasks i).told p (s.own i) (s.rest i) ≤ 1
  told_one : ∀ i j p, 0 < (tasks i).told p (s.own i) (s.rest i) →
    0 < (tasks j).told p (s.own j) (s.rest j) → i = j
  /-- When a call is about to create a mailbox, it is that of one of its creations; and a parent that it
  found in its listing is there under the number that it had then. -/
  parent : ∀ i caller arguments p next, tasks i = .setMailboxes caller arguments →
    s.rest i = .call (.createMailbox p) next →
    ∃ c ∈ Jmap.askedFor arguments, Jmap.creationPath caller (Jmap.found (s.own i)) c.2 = .ok p ∧
      ∀ id ∈ c.2.parentId, ∃ m, Jmap.findById? (Jmap.found (s.own i)) id = some m ∧
        p = m.path.child c.2.name caller.delimiter ∧
        ∃ e, s.backend.store.entryAt? m.path = some e ∧ e.id = m.id
  /-- No task changes a mailbox that is there. -/
  kept : ∀ i p e, s.backend.store.entryAt? p = some e → (s.step i).backend.store.entryAt? p = some e

section Orderly

variable {ι : Type} [DecidableEq ι] {limit : Nat} {tasks : ι → Task} {s : Joint ι Ended} {i : ι}

theorem contains_of_done (hs : s.Consistent limit)
    (htraces : (s.rest i).Traces limit (tasks i).Kept (tasks i).Done (s.own i)) {caller : Caller}
    {ended : Ended} (htask : tasks i = .provision caller) (hended : s.rest i = .done ended) :
    ended = .provisioned (.ok ()) ∧
      ∀ name ∈ defaultMailboxes, s.backend.store.contains ⟨caller.user, name⟩ = true := by
  rw [htask, hended] at htraces
  obtain ⟨-, hdone⟩ := htraces
  cases ended with
  | provisioned result =>
    obtain ⟨rfl, hshown⟩ := hdone
    refine ⟨rfl, fun name hname => ?_⟩
    obtain ⟨m, hm, htells⟩ := hshown name hname
    exact htells _ (hs.holds_own hm)
  | called result => exact hdone.elim
  | answered session lines => exact hdone.elim

/-- The call that a script is about to make is one of its moves after it, whatever the reply. -/
theorem parent_of_call (hs : s.Consistent limit)
    (htraces : (s.rest i).Traces limit (tasks i).Kept (tasks i).Done (s.own i)) {caller : Caller}
    {arguments : Json.Value} {p : Path} {next : Except Mailbox.Error Mailbox.Id → Script Ended}
    (htask : tasks i = .setMailboxes caller arguments) (hcall : s.rest i = .call (.createMailbox p) next) :
    ∃ c ∈ Jmap.askedFor arguments, Jmap.creationPath caller (Jmap.found (s.own i)) c.2 = .ok p ∧
      ∀ id ∈ c.2.parentId, ∃ m, Jmap.findById? (Jmap.found (s.own i)) id = some m ∧
        p = m.path.child c.2.name caller.delimiter ∧
        ∃ e, s.backend.store.entryAt? m.path = some e ∧ e.id = m.id := by
  rw [htask, hcall] at htraces
  have hrequested := (htraces.2 (.ok ⟨0⟩) trivial).invariant p (.ok ⟨0⟩) (by simp)
  rw [Jmap.found_concat_create] at hrequested
  obtain ⟨c, hc, hpath⟩ := hrequested
  refine ⟨c, hc, hpath, fun id hid => ?_⟩
  obtain ⟨m, hfind, hchild⟩ := Jmap.creationPath_child hpath hid
  obtain ⟨user, mailboxes, hlisted, hm⟩ := Jmap.mem_found (List.mem_of_find?_eq_some hfind)
  exact ⟨m, hfind, hchild, hs.holds_own hlisted m hm⟩

/-- **In every interleaving** of provisioning runs, calls and commands of any users, on a store that is
reached by any operations: provisioning succeeds and leaves all default mailboxes, a mailbox is created by
one of them only, parents stay where they were found, and no mailbox is changed. -/
theorem tasks_orderly (limit : Nat) (d : Char) (hlimit : 6 ≤ limit) (earlier : List Store.Operation)
    (registry : Account.Registry) (tasks : ι → Task) (schedule : List ι) :
    Orderly tasks schedule (Joint.run schedule
      (Joint.start (fun i => (tasks i).script) ⟨Store.run earlier (.empty limit d), registry⟩)) := by
  generalize hstart : Joint.start (fun i => (tasks i).script)
    ⟨Store.run earlier (.empty limit d), registry⟩ = s
  -- before the first move
  have hs : s.Consistent limit := by
    rw [← hstart]
    exact Joint.consistent_start (Store.sound_run (Store.Sound.empty limit d) earlier)
      (Store.keeps_run _ earlier).limit
  have hscript : ∀ i, s.rest i = (tasks i).script := by
    rw [← hstart]
    exact fun _ => rfl
  have htraces : ∀ i, (s.rest i).Traces limit (tasks i).Kept (tasks i).Done (s.own i) := by
    rw [← hstart]
    exact fun i => (tasks i).traces hlimit
  -- and after all of them
  have hafter := Joint.consistent_run hs schedule
  have hmoved := fun i => Joint.traces_run hs (htraces i) schedule
  refine ⟨?_, fun i caller ended => contains_of_done hafter (hmoved i), ?_, ?_,
    fun i caller arguments p next => parent_of_call hafter (hmoved i), fun i p e => hafter.entry_step i⟩
  · intro i caller htask hturns
    refine Joint.done_run ?_ hturns
    rw [hscript, htask]
    exact (Account.within_provisionMailboxes caller).map _
  · exact fun i p => (Task.told_le_made (hmoved i) p).trans (hafter.made_own_le_one i p)
  · intro i j p hi hj
    exact hafter.eq_of_made_own (hi.trans_le (Task.told_le_made (hmoved i) p))
      (hj.trans_le (Task.told_le_made (hmoved j) p))

end Orderly

/-- Two provisioning runs of a user in turns, and a command of hers for a mailbox inside a default one. Each
run creates what the other has not; and one mailbox is there before either comes to it. -/
theorem tasks_orderly_racing :
    let tasks : Option Bool → Task
      | none => .create (.start ⟨"ann", '.'⟩) "a1" "Sent.2024"
      | some _ => .provision ⟨"ann", '.'⟩
    let schedule := (List.replicate 15 [some true, none, some false]).flatten
    let s := Joint.run schedule (Joint.start (fun i => (tasks i).script)
      ⟨Store.run [] (.empty 255 '.'), .empty⟩)
    let told := fun i name => (tasks i).told ⟨"ann", name⟩ (s.own i) (s.rest i)
    6 ≤ 255 ∧
    (∀ i, ∃ ended, s.rest (some i) = .done ended ∧ ended = .provisioned (.ok ()) ∧
      ∀ name ∈ defaultMailboxes, s.backend.store.contains ⟨"ann", name⟩ = true) ∧
    told none "Sent.2024" = 1 ∧
    defaultMailboxes.map (told (some true)) = [1, 0, 0, 1, 0] ∧
    defaultMailboxes.map (told (some false)) = [0, 1, 0, 0, 1] := by
  intro tasks schedule s told
  have horderly : Orderly tasks schedule s := tasks_orderly 255 '.' (by decide) [] .empty tasks schedule
  refine ⟨by decide, fun i => ?_, by decide +kernel, by decide +kernel, by decide +kernel⟩
  obtain ⟨ended, hended⟩ := horderly.ends (some i) ⟨"ann", '.'⟩ rfl (by cases i <;> decide)
  exact ⟨ended, hended, horderly.provisioned (some i) ⟨"ann", '.'⟩ ended rfl hended⟩

end Concurrent

end MailServer
