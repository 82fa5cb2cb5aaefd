import MailServer.Imap.Command
import MailServer.Jmap.Dispatch
import MailServer.Proofs.Calls
import MailServer.Proofs.Name
import MailServer.Proofs.Owned

/-!
# Scripts of one user

A script is confined to a user when every call that it makes is about the user, whatever the replies
before it were. All that a request or a command of a user does is such a script; a listing is the one
reply that could lead it to mailboxes of another user, and a listing shows the asking user's alone.

* `Script.Confined`, `Attempt.Confined` — scripts that are confined to a user.
* `Confined.run_only` — such a script runs from the user's part of the server.
* `Confined.untouched` — it leaves the parts of all others as they are.
* `confined_process` — the requests, and the commands, of a user.
-/

namespace MailServer.Service

variable {α β ε : Type} {user : String}

/-! ## Confined scripts -/

/-- A listing that is given to the user shows mailboxes of the user. Other replies show none. -/
def Call.Own (user : String) : (c : Call) → c.Reply → Prop
  | listMailboxes _, .ok listed => ∀ m ∈ listed, m.path.user = user
  | _, _ => True

/-- Every call of the script is about the user, and the result is as `post` says, as long as all
listings show mailboxes of the user. -/
def Script.Confined (user : String) (post : α → Prop) : Script α → Prop
  | done a => post a
  | call c next => c.user = user ∧ ∀ reply, c.Own user reply → (next reply).Confined user post
  | note _ next => next.Confined user post

namespace Script

variable {P : α → Prop} {Q : β → Prop}

theorem confined_pure {a : α} (h : P a) : (pure a : Script α).Confined user P := h

theorem confined_ask {c : Call} (h : c.user = user) : (ask c).Confined user (c.Own user) :=
  ⟨h, fun _ hreply => hreply⟩

theorem confined_note (n : Note) : (Service.note n).Confined user fun _ => True := trivial

/-- Confined scripts one after the other. Induction on the first. -/
theorem Confined.bind {x : Script α} {f : α → Script β} (hx : x.Confined user P)
    (hf : ∀ a, P a → (f a).Confined user Q) : (x >>= f).Confined user Q := by
  show (x.bind f).Confined user Q
  induction x with
  | done a => exact hf a hx
  | call c next ih => exact ⟨hx.1, fun reply hreply => ih reply (hx.2 reply hreply)⟩
  | note n next ih => exact ih hx

theorem Confined.mono {P' : α → Prop} {x : Script α} (hx : x.Confined user P)
    (h : ∀ a, P a → P' a) : x.Confined user P' := by
  have hbind := hx.bind (f := pure) fun a ha => confined_pure (h a ha)
  rwa [bind_pure] at hbind

end Script

/-- The attempt is confined, and so is its value where it succeeds. -/
def Attempt.Confined (user : String) (post : α → Prop) (x : Attempt ε α) : Prop :=
  Script.Confined user (fun result => ∀ a, result = .ok a → post a) x.run

namespace Attempt

variable {P : α → Prop} {Q : β → Prop}

theorem confined_pure {a : α} (h : P a) : Confined user P (pure a : Attempt ε α) := by
  rintro _ ⟨⟩
  exact h

theorem confined_throw (e : ε) : Confined user P (throw e : Attempt ε α) := nofun

theorem confined_liftExcept {x : Except ε α} (h : ∀ a, x = .ok a → P a) :
    Confined user P (liftM x : Attempt ε α) := h

/-- A script is an attempt that does not fail. -/
theorem confined_lift {x : Script α} (h : x.Confined user P) :
    Confined user P (liftM x : Attempt ε α) := by
  refine Script.Confined.bind h fun a ha => ?_
  rintro _ ⟨⟩
  exact ha

theorem confined_ask {c : Call} (h : c.user = user) :
    Confined user (c.Own user) (liftM (ask c) : Attempt ε c.Reply) :=
  confined_lift (Script.confined_ask h)

/-- A call whose error is the attempt's, and of whose value nothing is asked. -/
theorem confined_mk {x : Script (Except ε α)} {R : Except ε α → Prop} (h : x.Confined user R) :
    Confined user (fun _ => True) (ExceptT.mk x) := h.mono fun _ _ _ _ => trivial

theorem Confined.bind {x : Attempt ε α} {f : α → Attempt ε β} (hx : Confined user P x)
    (hf : ∀ a, P a → Confined user Q (f a)) : Confined user Q (x >>= f) := by
  refine Script.Confined.bind hx fun result hresult => ?_
  cases result with
  | ok a => exact hf a (hresult a rfl)
  | error e => exact nofun

end Attempt

/-! ## Running a confined script -/

namespace Backend

/-- Listings are given to the user they are about, and show that user's mailboxes. -/
theorem own_answer {c : Call} (hc : c.user = user) (b : Backend) : c.Own user (b.answer c).1 := by
  cases c with
  | listMailboxes other =>
    cases hc
    intro m hm
    obtain ⟨-, -, huser, -⟩ := Mailbox.Store.mem_list_iff.mp hm
    exact huser
  | _ => trivial

theorem sorted_run (script : Script α) {b : Backend} (h : Keyed.Sorted b.store.entries) :
    Keyed.Sorted (b.run script).2.1.store.entries := by
  unfold run
  induction script generalizing b with
  | done a => exact h
  | call c next ih => exact ih _ (sorted_answer h c)
  | note n next ih => exact ih h

end Backend

namespace Script

variable {P : α → Prop} {script : Script α} {b : Backend}

theorem Confined.post (h : script.Confined user P) (b : Backend) : P (b.run script).1 := by
  unfold Backend.run
  induction script generalizing b with
  | done a => exact h
  | call c next ih => exact ih _ (h.2 _ (Backend.own_answer h.1 b)) _
  | note n next ih => exact ih h b

/-- **A confined script runs from the user's part**: there it comes to the same result with the same
notes, and leaves that part as it does in the whole server. Induction on the script. -/
theorem Confined.run_only (h : script.Confined user P) (hb : Keyed.Sorted b.store.entries) :
    (b.only user).run script = ((b.run script).1, (b.run script).2.1.only user, (b.run script).2.2) := by
  unfold Backend.run
  induction script generalizing b with
  | done a => rfl
  | call c next ih =>
    rw [run, run, Backend.answer_only h.1 hb]
    exact ih _ (h.2 _ (Backend.own_answer h.1 b)) (Backend.sorted_answer hb c)
  | note n next ih =>
    rw [run, run, ih h hb]

/-- **A confined script leaves others alone.** Induction on the script. -/
theorem Confined.untouched (h : script.Confined user P) {other : String} (hother : other ≠ user)
    (b : Backend) : b.Untouched other (b.run script).2.1 := by
  unfold Backend.run
  induction script generalizing b with
  | done a => exact Backend.Untouched.refl other b
  | call c next ih =>
    have hc : c.user ≠ other := fun hc => hother (hc.symm.trans h.1)
    exact (Backend.untouched_answer hc b).trans (ih _ (h.2 _ (Backend.own_answer h.1 b)) _)
  | note n next ih => exact ih h b

end Script

end MailServer.Service

/-! ## Provisioning -/

namespace MailServer.Account

open Service (Attempt Script)

variable {caller : Caller} {user : String}

theorem confined_provisionUser (hcaller : caller.user = user) :
    (provisionUser caller).Confined user fun _ => True := by
  unfold provisionUser
  refine Attempt.Confined.bind (Attempt.confined_mk (Script.confined_ask hcaller)) fun known _ => ?_
  split
  · exact Attempt.confined_pure trivial
  · refine Attempt.Confined.bind (Attempt.confined_mk (Script.confined_ask hcaller)) fun _ _ => ?_
    exact Attempt.confined_lift (Script.confined_note _)

theorem confined_provisionMailbox (hcaller : caller.user = user) (name : String) :
    (provisionMailbox caller name).Confined user fun _ => True := by
  unfold provisionMailbox
  refine Attempt.Confined.bind (Attempt.confined_ask hcaller) fun known _ => ?_
  split
  · exact Attempt.confined_throw _
  · exact Attempt.confined_pure trivial
  · refine Attempt.Confined.bind (Attempt.confined_ask hcaller) fun made _ => ?_
    split
    · exact Attempt.confined_lift (Script.confined_note _)
    · exact Attempt.confined_pure trivial
    · exact Attempt.confined_throw _

theorem confined_provisionMailboxes (hcaller : caller.user = user) :
    (provisionMailboxes caller).Confined user fun _ => True := by
  unfold provisionMailboxes
  induction defaultMailboxes with
  | nil => exact Attempt.confined_pure trivial
  | cons name names ih =>
    exact Attempt.Confined.bind (confined_provisionMailbox hcaller name) fun _ _ => ih

end MailServer.Account

/-! ## Methods -/

namespace MailServer.Jmap

open Mailbox (Listing)
open Service (Attempt Script)

variable {caller : Caller} {user : String}

/-- A creation asks for a mailbox of the caller: a name that has been resolved, or a child of a
mailbox that was listed. -/
theorem user_of_creationPath {existing : List Listing} (hexisting : ∀ m ∈ existing, m.path.user = user)
    (hcaller : caller.user = user) {c : Creation} {path : Mailbox.Path}
    (h : creationPath caller existing c = .ok path) : path.user = user := by
  unfold creationPath at h
  split at h
  · cases h
  split at h
  · split at h
    · rename_i parent hfind
      cases h
      exact hexisting parent (List.mem_of_find?_eq_some hfind)
    · cases h
  · cases hresolve : Mailbox.resolve caller c.name with
    | error e =>
      rw [hresolve] at h
      cases h
    | ok p =>
      rw [hresolve] at h
      cases h
      exact (Mailbox.user_of_resolve hresolve).trans hcaller

theorem confined_create {existing : List Listing} (hexisting : ∀ m ∈ existing, m.path.user = user)
    (hcaller : caller.user = user) (c : Creation) :
    (create caller existing c).Confined user fun _ => True := by
  unfold create
  split
  · exact Attempt.confined_pure trivial
  · rename_i path hpath
    have hpath := user_of_creationPath hexisting hcaller hpath
    refine Attempt.Confined.bind (Attempt.confined_ask hpath) fun made _ => ?_
    split
    · exact Attempt.confined_pure trivial
    · split
      · exact Attempt.confined_pure trivial
      · exact Attempt.confined_pure trivial
      · exact Attempt.confined_pure trivial
      · exact Attempt.confined_throw _

theorem confined_createAll {existing : List Listing} (hexisting : ∀ m ∈ existing, m.path.user = user)
    (hcaller : caller.user = user) (creations : List (String × Creation)) :
    (createAll caller existing creations).Confined user fun _ => True := by
  induction creations with
  | nil => exact Attempt.confined_pure trivial
  | cons c creations ih =>
    refine Attempt.Confined.bind (confined_create hexisting hcaller c.2) fun _ _ => ?_
    refine Attempt.Confined.bind ih fun _ _ => ?_
    exact Attempt.confined_pure trivial

/-- Parents are looked for among mailboxes of the caller. -/
theorem confined_parentsOf (hcaller : caller.user = user) (creations : List (String × Creation)) :
    (parentsOf caller creations).Confined user fun existing => ∀ m ∈ existing, m.path.user = user := by
  unfold parentsOf
  split
  · refine Attempt.Confined.bind (Attempt.confined_ask hcaller) fun reply hreply => ?_
    split
    · exact Attempt.confined_pure hreply
    · exact Attempt.confined_throw _
  · exact Attempt.confined_pure (by simp)

theorem confined_setMailboxes (hcaller : caller.user = user) (v : Json.Value) :
    (setMailboxes.process v caller).Confined user fun _ => True := by
  refine Attempt.Confined.bind (Attempt.confined_liftExcept fun _ _ => trivial) fun creations _ => ?_
  refine Attempt.Confined.bind (confined_parentsOf hcaller creations) fun existing hexisting => ?_
  refine Attempt.Confined.bind (confined_createAll hexisting hcaller creations) fun outcomes _ => ?_
  exact Attempt.confined_pure trivial

theorem confined_getMailboxes (hcaller : caller.user = user) (v : Json.Value) :
    (getMailboxes.process v caller).Confined user fun _ => True := by
  refine Attempt.Confined.bind (Attempt.confined_liftExcept fun _ _ => trivial) fun ids _ => ?_
  refine Attempt.Confined.bind (Attempt.confined_ask hcaller) fun reply _ => ?_
  split
  · exact Attempt.confined_throw _
  · exact Attempt.confined_pure trivial

theorem confined_execute (hcaller : caller.user = user) (i : Invocation) :
    (Methods.mailboxMethods.execute i caller).Confined user fun _ => True := by
  have hcall : (Methods.mailboxMethods.call i caller).Confined user fun _ => True := by
    unfold Methods.call
    rcases find?_mailboxMethods i.method with h | h | h
    · rw [h]
      exact Script.Confined.bind (confined_setMailboxes hcaller i.arguments) fun _ _ =>
        Script.confined_pure trivial
    · rw [h]
      exact Script.Confined.bind (confined_getMailboxes hcaller i.arguments) fun _ _ =>
        Script.confined_pure trivial
    · rw [h]
      exact Script.confined_pure trivial
  unfold Methods.execute
  refine hcall.bind fun result _ => ?_
  split
  · exact Script.confined_pure trivial
  · exact (Script.confined_note _).bind fun _ _ => Script.confined_pure trivial

theorem confined_dispatch (hcaller : caller.user = user) (batch : List Invocation) :
    (Methods.mailboxMethods.dispatch caller batch).Confined user fun _ => True := by
  induction batch with
  | nil => exact Script.confined_pure trivial
  | cons i batch ih =>
    refine (confined_execute hcaller i).bind fun _ _ => ?_
    exact ih.bind fun _ _ => Script.confined_pure trivial

end MailServer.Jmap

/-! ## Requests -/

namespace MailServer.Http

open Service (Attempt Script)

variable {user : String}

theorem Trace.confined_step (t : Trace) (next : State) : (t.step next).Confined user fun _ => True := by
  unfold step
  split
  · exact Script.confined_pure trivial
  · exact (Script.confined_note _).bind fun _ _ => Script.confined_pure trivial

theorem Trace.confined_stepFail (t : Trace) (kind : Failure) :
    (t.stepFail kind).Confined user fun _ => True := by
  unfold stepFail
  split
  · exact Script.confined_pure trivial
  · exact (Script.confined_note _).bind fun _ _ => Script.confined_pure trivial

namespace Stages

variable {β : Type} {stages : Stages β} {r : Request}

section

variable (huser : ∀ caller, caller.user = user →
    (stages.provisionUser caller).Confined user fun _ => True)
  (hmailboxes : ∀ caller, caller.user = user →
    (stages.provisionMailboxes caller).Confined user fun _ => True)
  (hhandle : ∀ input caller, caller.user = user →
    (stages.handle input caller).Confined user fun _ => True)
include hhandle

theorem confined_execute {caller : Caller} (hcaller : caller.user = user) (input : β) (t : Trace) :
    (stages.execute input caller t).Confined user fun _ => True := by
  unfold execute
  refine (t.confined_step .executing).bind fun _ _ => ?_
  refine Script.Confined.bind (hhandle input caller hcaller) fun result _ => ?_
  cases result with
  | ok response => exact (Script.confined_note _).bind fun _ _ => Script.confined_pure trivial
  | error e => exact (Script.confined_note _).bind fun _ _ => Script.confined_pure trivial

include huser hmailboxes

theorem confined_provision {caller : Caller} (hcaller : caller.user = user) (input : β) (t : Trace) :
    (stages.provision input caller t).Confined user fun _ => True := by
  unfold provision
  refine (t.confined_step .provisioning).bind fun _ _ => ?_
  refine Script.Confined.bind (huser caller hcaller) fun entered _ => ?_
  split
  · exact Script.confined_pure trivial
  refine Script.Confined.bind (hmailboxes caller hcaller) fun given _ => ?_
  split
  · exact Script.confined_pure trivial
  · exact confined_execute hhandle hcaller input _

/-- A request whose sender, if it is known, is the user, and whose stages are about the user. -/
theorem confined_process (hauthenticate : (stages.authenticate r).Confined user (·.user = user)) :
    (stages.process r).Confined user fun _ => True := by
  have hadvance : (stages.advance r .start).Confined user fun _ => True := by
    unfold advance
    refine (Trace.start.confined_step .authenticating).bind fun t _ => ?_
    refine Script.Confined.bind hauthenticate fun authenticated hcaller => ?_
    split
    · exact Script.confined_pure trivial
    · rename_i caller
      refine (t.confined_step .decoding).bind fun _ _ => ?_
      split
      · exact Script.confined_pure trivial
      · exact confined_provision huser hmailboxes hhandle (hcaller caller rfl) _ _
  unfold process
  refine hadvance.bind fun advanced _ => ?_
  obtain ⟨result, t⟩ := advanced
  dsimp only
  split
  · refine (t.confined_step .responding).bind fun t _ => ?_
    exact (t.confined_step .completed).bind fun _ _ => Script.confined_pure trivial
  · refine (Script.confined_note _).bind fun _ _ => ?_
    refine (t.confined_stepFail _).bind fun t _ => ?_
    exact (t.confined_step .completed).bind fun _ _ => Script.confined_pure trivial

end

end Stages

/-- **A request of the user** is about the user alone; one whose sender is not known is about nobody. -/
theorem confined_request {tokens : Tokens} {r : Request}
    (h : ∀ caller, tokens.authenticate r = .ok caller → caller.user = user) :
    ((Jmap.stages tokens .mailboxMethods).process r).Confined user fun _ => True := by
  refine Stages.confined_process (fun _ hcaller => Account.confined_provisionUser hcaller)
    (fun _ hcaller => Account.confined_provisionMailboxes hcaller) ?_ ?_
  · intro batch caller hcaller
    refine Attempt.Confined.bind (Attempt.confined_lift (Jmap.confined_dispatch hcaller batch)) fun _ _ => ?_
    exact Attempt.confined_pure trivial
  · exact Attempt.confined_liftExcept h

end MailServer.Http

/-! ## Commands -/

namespace MailServer.Imap

open Service (Attempt Script)

variable {user : String}

/-- A session of the user, in which nothing is selected or a mailbox of the user. -/
structure Session.Own (user : String) (s : Session) : Prop where
  caller : s.caller.user = user
  selected : ∀ selection, s.selected = some selection → selection.path.user = user

variable {s : Session}

theorem Session.confined_poll (h : s.Own user) : s.poll.Confined user fun polled => polled.1.Own user := by
  unfold poll
  cases hselected : s.selected with
  | none => exact Attempt.confined_pure h
  | some selection =>
    have hselection := h.selected selection hselected
    refine Attempt.Confined.bind (Attempt.confined_mk (Script.confined_ask hselection)) fun status _ => ?_
    split
    · exact Attempt.confined_pure h
    · refine Attempt.confined_pure ⟨h.caller, ?_⟩
      rintro _ ⟨⟩
      exact hselection

/-- What a command of the user asks for is the user's: its name is resolved for the user. -/
theorem Command.confined_attempt (h : s.Own user) (c : Command) :
    (c.attempt s).Confined user fun answered => answered.1.Own user := by
  have hresolve : Attempt.Confined user (·.user = user)
      (liftM (Mailbox.resolve s.caller c.mailbox) : Attempt Mailbox.Error Mailbox.Path) :=
    Attempt.confined_liftExcept fun path hpath => (Mailbox.user_of_resolve hpath).trans h.caller
  unfold attempt
  cases c.verb with
  | create =>
    refine Attempt.Confined.bind hresolve fun path hpath => ?_
    refine Attempt.Confined.bind (Attempt.confined_mk (Script.confined_ask hpath)) fun _ _ => ?_
    exact Attempt.Confined.bind (Session.confined_poll h) fun _ hpolled => Attempt.confined_pure hpolled
  | select =>
    refine Attempt.Confined.bind hresolve fun path hpath => ?_
    refine Attempt.Confined.bind (Attempt.confined_mk (Script.confined_ask hpath)) fun status _ => ?_
    refine Attempt.confined_pure ⟨h.caller, ?_⟩
    rintro _ ⟨⟩
    exact hpath

/-- **A command of the user** is about the user alone, and so is the session that it leaves. -/
theorem Command.confined_process (h : s.Own user) (c : Command) :
    (c.process s).Confined user fun answered => answered.1.Own user := by
  unfold process
  refine Script.Confined.bind (confined_attempt h c) fun result hresult => ?_
  split
  · rename_i answered
    exact Script.confined_pure (hresult answered rfl)
  · refine (Script.confined_note _).bind fun _ _ => Script.confined_pure ?_
    unfold sessionAfterFailure
    split
    · exact h
    · exact ⟨h.caller, nofun⟩

end MailServer.Imap
