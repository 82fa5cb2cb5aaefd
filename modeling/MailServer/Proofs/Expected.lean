import MailServer.Imap.Command
import MailServer.Jmap.Dispatch
import MailServer.Proofs.Calls
import MailServer.Proofs.Run

/-!
# Scripts that meet nothing unexpected

The store in memory fails in few ways: a mailbox is there already, its name is too long, or there is
none to look at. A script is expected where, as long as the replies are of this kind, it ends as
foreseen and no event that it logs is the classification of an error that no rule knows.

* `Call.Possible` — the replies that the store in memory gives.
* `Script.Expected`, `Attempt.Expected` — the scripts, with what is foreseen of their results.
* `Script.Expected.run` — an expected script on the store in memory.
* `expected_provisionMailboxes`, `expected_dispatch`, `expected_process` — provisioning, batches and
  commands.
-/

namespace MailServer.Service

variable {α β ε : Type} {limit : Nat}

/-! ## Replies and notes -/

/-- The replies of the store in memory where a name may have `limit` characters. -/
def Call.Possible (limit : Nat) : (c : Call) → c.Reply → Prop
  | createMailbox path, .error e =>
    (∃ other, e = .alreadyExists other) ∨ (limit < path.name.length ∧ e = .nameTooLong path.name limit)
  | status _, .error e => ∃ path, e = .notFound path
  | mailboxExists _, .error _ => False
  | listMailboxes _, .error _ => False
  | containsUser _, .error _ => False
  | addUser _, .error _ => False
  | _, _ => True

theorem Backend.possible_answer (c : Call) {b : Backend} (h : b.store.limit = limit) :
    c.Possible limit (b.answer c).1 ∧ (b.answer c).2.store.limit = limit := by
  cases c with
  | createMailbox path =>
    refine ⟨?_, (Mailbox.Store.keeps_create b.store path).limit.trans h⟩
    show Call.Possible limit (.createMailbox path) (b.store.create path).1
    rcases Mailbox.Store.create_cases b.store path with ⟨hlong, hc⟩ | ⟨-, -, hc⟩ | ⟨-, -, hc⟩
    · rw [hc, h]
      exact Or.inr ⟨h ▸ hlong, rfl⟩
    · rw [hc]
      exact Or.inl ⟨_, rfl⟩
    · rw [hc]
      trivial
  | status path =>
    refine ⟨?_, h⟩
    show Call.Possible limit (.status path) (b.store.status path)
    unfold Mailbox.Store.status
    split
    · exact ⟨_, rfl⟩
    · trivial
  | _ => exact ⟨trivial, h⟩

theorem Backend.outcome_of_runs {x : Script α} {b after : Backend} {a : α} {notes : List Note}
    (h : Script.Runs Backend.answer x b a after notes) : Backend.outcome x b = (a, after) := by
  rw [Backend.outcome, Backend.run, show x.run Backend.answer b = _ from h]

/-- The note is not the classification of an error that no rule knows. -/
def Note.Expected : Note → Prop
  | logged event => event.source = .classify → ("rule", Log.fallbackName) ∉ event.fields
  | timed _ => True

/-! ## Expected scripts -/

/-- As long as the replies are possible ones, all notes are expected and the result is as `post` says. -/
def Script.Expected (limit : Nat) (post : α → Prop) : Script α → Prop
  | done a => post a
  | call c next => ∀ reply, c.Possible limit reply → (next reply).Expected limit post
  | note n next => n.Expected ∧ next.Expected limit post

namespace Script

variable {P : α → Prop} {Q : β → Prop}

theorem expected_pure {a : α} (h : P a) : (pure a : Script α).Expected limit P := h

theorem expected_ask (c : Call) : (ask c).Expected limit (c.Possible limit) := fun _ h => h

theorem expected_note {n : Note} (h : n.Expected) : (Service.note n).Expected limit fun _ => True :=
  ⟨h, trivial⟩

/-- Expected scripts one after the other. Induction on the first. -/
theorem Expected.bind {x : Script α} {f : α → Script β} (hx : x.Expected limit P)
    (hf : ∀ a, P a → (f a).Expected limit Q) : (x >>= f).Expected limit Q := by
  show (x.bind f).Expected limit Q
  induction x with
  | done a => exact hf a hx
  | call c next ih => exact fun reply hreply => ih reply (hx reply hreply)
  | note n next ih => exact ⟨hx.1, ih hx.2⟩

theorem Expected.mono {P' : α → Prop} {x : Script α} (hx : x.Expected limit P)
    (h : ∀ a, P a → P' a) : x.Expected limit P' := by
  have hbind := hx.bind (f := pure) fun a ha => expected_pure (h a ha)
  rwa [bind_pure] at hbind

/-- **An expected script on the store in memory** ends as foreseen, and all its notes are expected.
Induction on the script; no call changes the limit. -/
theorem Expected.run {x : Script α} {b after : Backend} {a : α} {notes : List Note}
    (hx : x.Expected limit P) (hb : b.store.limit = limit)
    (hrun : Runs Backend.answer x b a after notes) :
    P a ∧ (∀ n ∈ notes, n.Expected) ∧ after.store.limit = limit := by
  induction x generalizing b notes with
  | done a' =>
    cases hrun
    exact ⟨hx, by simp, hb⟩
  | call c next ih =>
    obtain ⟨hreply, hafter⟩ := Backend.possible_answer c hb
    exact ih _ (hx _ hreply) hafter hrun
  | note n next ih =>
    obtain ⟨rest, rfl, hnext⟩ := hrun.of_note
    obtain ⟨hpost, hnotes, hlimit⟩ := ih hx.2 hb hnext
    exact ⟨hpost, List.forall_mem_cons.mpr ⟨hx.1, hnotes⟩, hlimit⟩

end Script

/-! ## Expected attempts -/

/-- What is foreseen of the value and of the error of an attempt. -/
def Foreseen (errors : ε → Prop) (values : α → Prop) : Except ε α → Prop
  | .ok a => values a
  | .error e => errors e

/-- The attempt is expected to come to such a value or to such an error. -/
def Attempt.Expected (limit : Nat) (errors : ε → Prop) (values : α → Prop) (x : Attempt ε α) : Prop :=
  Script.Expected limit (Foreseen errors values) x.run

namespace Attempt

variable {E : ε → Prop} {P : α → Prop} {Q : β → Prop}

theorem expected_pure {a : α} (h : P a) : Expected limit E P (pure a : Attempt ε α) := h

theorem expected_liftExcept {x : Except ε α} (h : Foreseen E P x) :
    Expected limit E P (liftM x : Attempt ε α) := h

theorem expected_mk {x : Script (Except ε α)} (h : x.Expected limit (Foreseen E P)) :
    Expected limit E P (ExceptT.mk x) := h

/-- A script is an attempt that does not fail. -/
theorem expected_lift {x : Script α} (h : x.Expected limit P) :
    Expected limit E P (liftM x : Attempt ε α) :=
  Script.Expected.bind h fun _ ha => ha

theorem expected_ask (c : Call) : Expected limit E (c.Possible limit) (liftM (ask c) : Attempt ε c.Reply) :=
  expected_lift (Script.expected_ask c)

theorem Expected.bind {x : Attempt ε α} {f : α → Attempt ε β} (hx : Expected limit E P x)
    (hf : ∀ a, P a → Expected limit E Q (f a)) : Expected limit E Q (x >>= f) := by
  refine Script.Expected.bind hx fun result hresult => ?_
  cases result with
  | ok a => exact hf a hresult
  | error e => exact hresult

end Attempt

end MailServer.Service

/-! ## Classifying -/

namespace MailServer.Log.Classifier

variable {ε α : Type}

/-- Where a rule applies to an error, the event names a rule of the table. -/
theorem expected_resolve {c : Classifier ε α} (hnames : ∀ rule ∈ c.rules, rule.name ≠ fallbackName)
    {e : ε} (h : ∃ rule ∈ c.rules, rule.applies e = true) (context : Context) :
    (Service.Note.logged (c.resolve e context).event).Expected := by
  obtain ⟨rule, hrule, happlies⟩ := h
  unfold resolve find?
  cases hfind : c.rules.find? (·.applies e) with
  | none => exact absurd happlies (List.find?_eq_none.mp hfind rule hrule)
  | some first =>
    have hname := hnames first (List.mem_of_find?_eq_some hfind)
    intro _ hmem
    simp [report, Ne.symm hname] at hmem

end MailServer.Log.Classifier

/-! ## Provisioning -/

namespace MailServer.Account

open Service (Attempt Script)

variable {limit : Nat}

theorem expected_provisionUser (caller : Caller) :
    (provisionUser caller).Expected limit (fun _ => False) fun _ => True := by
  unfold provisionUser
  have hasked : Attempt.Expected limit (fun _ => False) (fun _ => True)
      (reply (Service.ask (.containsUser caller.user))) := by
    refine Attempt.expected_mk ((Script.expected_ask _).mono fun answer h => ?_)
    cases answer with
    | ok known => trivial
    | error e => exact h
  have hadded : Attempt.Expected limit (fun _ => False) (fun _ => True)
      (reply (Service.ask (.addUser caller.user))) := by
    refine Attempt.expected_mk ((Script.expected_ask _).mono fun answer h => ?_)
    cases answer with
    | ok u => trivial
    | error e => exact h
  refine hasked.bind fun known _ => ?_
  split
  · exact Attempt.expected_pure trivial
  · exact hadded.bind fun _ _ => Attempt.expected_lift (Script.expected_note nofun)

/-- A default mailbox whose name is short enough can be provided: that it is there is no failure. -/
theorem expected_provisionMailbox (caller : Caller) {name : String} (hshort : name.length ≤ limit) :
    (provisionMailbox caller name).Expected limit (fun _ => False) fun _ => True := by
  unfold provisionMailbox
  refine (Attempt.expected_ask (.mailboxExists ⟨caller.user, name⟩)).bind fun known hknown => ?_
  cases known with
  | error e => exact hknown.elim
  | ok there =>
    cases there with
    | true => exact Attempt.expected_pure trivial
    | false =>
      refine (Attempt.expected_ask (.createMailbox ⟨caller.user, name⟩)).bind fun made hmade => ?_
      cases made with
      | ok id => exact Attempt.expected_lift (Script.expected_note nofun)
      | error e =>
        rcases hmade with ⟨other, rfl⟩ | ⟨hlong, -⟩
        · exact Attempt.expected_pure trivial
        · exact absurd hshort (not_le.mpr hlong)

theorem expected_provisionMailboxes (caller : Caller)
    (hshort : ∀ name ∈ defaultMailboxes, name.length ≤ limit) :
    (provisionMailboxes caller).Expected limit (fun _ => False) fun _ => True := by
  unfold provisionMailboxes
  generalize defaultMailboxes = names at hshort ⊢
  induction names with
  | nil => exact Attempt.expected_pure trivial
  | cons name names ih =>
    obtain ⟨hname, hnames⟩ := List.forall_mem_cons.mp hshort
    exact (expected_provisionMailbox caller hname).bind fun _ _ => ih hnames

end MailServer.Account

/-! ## Batches -/

namespace MailServer.Jmap

open Mailbox (Listing)
open Service (Attempt Script)

variable {limit : Nat}

/-- The error is the client's: there is no such method, or the arguments are not the method's. -/
def MethodError.IsClients : MethodError → Prop
  | unknownMethod _ | invalidArguments _ => True
  | mailbox _ => False

/-- The answer is an error object of the type `serverFail`. -/
def Result.IsServerFail (r : Result) : Prop :=
  r.name = errorName ∧ ∃ members, r.value = .object members ∧
    Keyed.find? "type" members = some (.string "serverFail")

theorem isClients_argumentsOf {α : Type} (shape : Json.Shape α) (v : Json.Value) :
    Service.Foreseen MethodError.IsClients (fun _ => True) (argumentsOf shape v) := by
  unfold argumentsOf
  cases shape v with
  | ok a => trivial
  | error cause => trivial

theorem expected_create (caller : Caller) (existing : List Listing) (c : Creation) :
    (create caller existing c).Expected limit MethodError.IsClients fun _ => True := by
  unfold create
  split
  · exact Attempt.expected_pure trivial
  · rename_i path _
    refine (Attempt.expected_ask (.createMailbox path)).bind fun made hmade => ?_
    cases made with
    | ok id => exact Attempt.expected_pure trivial
    | error e =>
      rcases hmade with ⟨other, rfl⟩ | ⟨-, rfl⟩
      · exact Attempt.expected_pure trivial
      · exact Attempt.expected_pure trivial

theorem expected_createAll (caller : Caller) (existing : List Listing)
    (creations : List (String × Creation)) :
    (createAll caller existing creations).Expected limit MethodError.IsClients fun _ => True := by
  induction creations with
  | nil => exact Attempt.expected_pure trivial
  | cons c creations ih =>
    refine (expected_create caller existing c.2).bind fun _ _ => ?_
    exact ih.bind fun _ _ => Attempt.expected_pure trivial

theorem expected_parentsOf (caller : Caller) (creations : List (String × Creation)) :
    (parentsOf caller creations).Expected limit MethodError.IsClients fun _ => True := by
  unfold parentsOf
  split
  · refine (Attempt.expected_ask (.listMailboxes caller.user)).bind fun listed hlisted => ?_
    cases listed with
    | ok mailboxes => exact Attempt.expected_pure trivial
    | error e => exact hlisted.elim
  · exact Attempt.expected_pure trivial

theorem expected_setMailboxes (caller : Caller) (v : Json.Value) :
    (setMailboxes.process v caller).Expected limit MethodError.IsClients fun _ => True := by
  refine Attempt.Expected.bind (Attempt.expected_liftExcept (isClients_argumentsOf _ v))
    fun creations _ => ?_
  refine (expected_parentsOf caller creations).bind fun existing _ => ?_
  exact (expected_createAll caller existing creations).bind fun _ _ => Attempt.expected_pure trivial

theorem expected_getMailboxes (caller : Caller) (v : Json.Value) :
    (getMailboxes.process v caller).Expected limit MethodError.IsClients fun _ => True := by
  refine Attempt.Expected.bind (Attempt.expected_liftExcept (isClients_argumentsOf _ v)) fun ids _ => ?_
  refine (Attempt.expected_ask (.listMailboxes caller.user)).bind fun listed hlisted => ?_
  cases listed with
  | ok mailboxes => exact Attempt.expected_pure trivial
  | error e => exact hlisted.elim

theorem expected_mailboxMethods (caller : Caller) : ∀ m ∈ Methods.mailboxMethods.methods,
    m.responseName ≠ errorName ∧
      ∀ v, (m.process v caller).Expected limit MethodError.IsClients fun _ => True := by
  intro m hm
  rcases List.mem_pair.mp hm with rfl | rfl
  · exact ⟨by decide, expected_setMailboxes caller⟩
  · exact ⟨by decide, expected_getMailboxes caller⟩

/-- What a call comes to: a value under the name of a method's answers, or an error of the client. -/
theorem expected_call (i : Invocation) (caller : Caller) :
    (Methods.mailboxMethods.call i caller).Expected limit
      (Service.Foreseen MethodError.IsClients fun answer => answer.1 ≠ errorName) := by
  unfold Methods.call
  cases hfind : Methods.mailboxMethods.find? i.method with
  | none => exact trivial
  | some method =>
    obtain ⟨hname, hprocess⟩ := expected_mailboxMethods caller method (List.mem_of_find?_eq_some hfind)
    refine Script.Expected.bind (hprocess i.arguments) fun result hresult => ?_
    cases result with
    | ok v => exact hname
    | error e => exact hresult

/-- The object for an error is of the type that its form names. -/
theorem not_isServerFail {form : ErrorForm} (h : form.type ≠ "serverFail") (e : MethodError)
    (callId : String) : ¬ (Result.failed (form.toValue e) callId).IsServerFail := by
  rintro ⟨-, members, hvalue, htype⟩
  have hfound : Keyed.find? "type" members = some (.string form.type) := by
    obtain ⟨type, described⟩ := form
    cases described <;> cases hvalue <;> rfl
  rw [hfound] at htype
  exact h (Json.Value.string.inj (Option.some.inj htype))

/-- An error of the client has a rule, and the rule gives it another type than `serverFail`. -/
theorem isClients_resolve {e : MethodError} (h : e.IsClients) (context : Log.Context) :
    (Service.Note.logged (methodRules.resolve e context).event).Expected ∧
      (methodRules.resolve e context).action.type ≠ "serverFail" := by
  have hnames : ∀ rule ∈ methodRules.rules, rule.name ≠ Log.fallbackName := by decide
  cases e with
  | unknownMethod name =>
    refine ⟨methodRules.expected_resolve hnames ⟨_, List.mem_cons_self, rfl⟩ context, ?_⟩
    exact show "unknownMethod" ≠ "serverFail" by decide
  | invalidArguments message =>
    refine ⟨methodRules.expected_resolve hnames ⟨_, List.mem_cons_of_mem _ List.mem_cons_self, rfl⟩ context,
      ?_⟩
    exact show "invalidArguments" ≠ "serverFail" by decide
  | mailbox cause => exact h.elim

theorem expected_execute (i : Invocation) (caller : Caller) :
    (Methods.mailboxMethods.execute i caller).Expected limit
      fun r => r.callId = i.callId ∧ ¬ r.IsServerFail := by
  unfold Methods.execute
  refine (expected_call i caller).bind fun result hresult => ?_
  cases result with
  | ok answer => exact ⟨rfl, fun h => hresult h.1⟩
  | error e =>
    obtain ⟨hnote, htype⟩ := isClients_resolve hresult (Methods.context i)
    exact (Script.expected_note hnote).bind fun _ _ => ⟨rfl, not_isServerFail htype e i.callId⟩

theorem expected_dispatch (caller : Caller) (batch : List Invocation) :
    (Methods.mailboxMethods.dispatch caller batch).Expected limit fun results =>
      results.map (·.callId) = batch.map (·.callId) ∧ ∀ r ∈ results, ¬ r.IsServerFail := by
  induction batch with
  | nil => exact Script.expected_pure ⟨rfl, by simp⟩
  | cons i batch ih =>
    refine (expected_execute i caller).bind fun r hr => ?_
    refine ih.bind fun results hresults => ?_
    refine Script.expected_pure ⟨?_, List.forall_mem_cons.mpr ⟨hr.2, hresults.2⟩⟩
    rw [List.map_cons, List.map_cons, hr.1, hresults.1]

theorem expected_handle (tokens : Http.Tokens) (batch : List Invocation) (caller : Caller) :
    ((stages tokens Methods.mailboxMethods).handle batch caller).Expected limit (fun _ => False)
      fun _ => True :=
  Attempt.Expected.bind (Attempt.expected_lift (expected_dispatch caller batch)) fun _ _ =>
    Attempt.expected_pure trivial

end MailServer.Jmap

/-! ## Commands -/

namespace MailServer.Imap

open Service (Attempt Script)

variable {limit : Nat}

/-- Every error that concerns mailboxes has a rule. -/
theorem expected_rules (v : Verb) {e : Mailbox.Error} (h : e.isDomain = true) (context : Log.Context) :
    (Service.Note.logged (v.rules.resolve e context).event).Expected := by
  cases v with
  | create =>
    have hnames : ∀ rule ∈ createRules.rules, rule.name ≠ Log.fallbackName := by decide
    exact createRules.expected_resolve hnames
      ⟨_, List.mem_cons_of_mem _ (List.mem_cons_of_mem _ List.mem_cons_self), h⟩ context
  | select =>
    have hnames : ∀ rule ∈ selectRules.rules, rule.name ≠ Log.fallbackName := by decide
    exact selectRules.expected_resolve hnames ⟨_, List.mem_cons_of_mem _ List.mem_cons_self, h⟩ context

theorem isDomain_resolve (caller : Caller) (name : String) :
    Service.Foreseen (·.isDomain = true) (fun _ => True) (Mailbox.resolve caller name) := by
  unfold Mailbox.resolve
  dsimp only
  split <;> trivial

theorem expected_status (path : Mailbox.Path) :
    Attempt.Expected limit (·.isDomain = true) (fun _ => True)
      (ExceptT.mk (Service.ask (.status path)) : Attempt Mailbox.Error Mailbox.Status) := by
  refine Attempt.expected_mk ((Script.expected_ask _).mono fun reply h => ?_)
  cases reply with
  | ok status => trivial
  | error e =>
    obtain ⟨other, rfl⟩ := h
    rfl

theorem expected_createMailbox (path : Mailbox.Path) :
    Attempt.Expected limit (·.isDomain = true) (fun _ => True)
      (ExceptT.mk (Service.ask (.createMailbox path)) : Attempt Mailbox.Error Mailbox.Id) := by
  refine Attempt.expected_mk ((Script.expected_ask _).mono fun reply h => ?_)
  cases reply with
  | ok id => trivial
  | error e =>
    rcases h with ⟨other, rfl⟩ | ⟨-, rfl⟩
    · rfl
    · rfl

theorem expected_poll (s : Session) : s.poll.Expected limit (·.isDomain = true) fun _ => True := by
  unfold Session.poll
  split
  · exact Attempt.expected_pure trivial
  · refine (expected_status _).bind fun status _ => ?_
    split
    · exact Attempt.expected_pure trivial
    · exact Attempt.expected_pure trivial

theorem expected_attempt (c : Command) (s : Session) :
    (c.attempt s).Expected limit (·.isDomain = true) fun _ => True := by
  have hresolve : Attempt.Expected limit (·.isDomain = true) (fun _ => True)
      (liftM (Mailbox.resolve s.caller c.mailbox) : Attempt Mailbox.Error Mailbox.Path) :=
    Attempt.expected_liftExcept (isDomain_resolve s.caller c.mailbox)
  unfold Command.attempt
  cases c.verb with
  | create =>
    refine hresolve.bind fun path _ => ?_
    refine (expected_createMailbox path).bind fun _ _ => ?_
    exact (expected_poll s).bind fun _ _ => Attempt.expected_pure trivial
  | select =>
    refine hresolve.bind fun path _ => ?_
    exact (expected_status path).bind fun _ _ => Attempt.expected_pure trivial

theorem expected_process (c : Command) (s : Session) :
    (c.process s).Expected limit fun _ => True := by
  unfold Command.process
  refine Script.Expected.bind (expected_attempt c s) fun result hresult => ?_
  cases result with
  | ok answer => exact Script.expected_pure trivial
  | error e =>
    have hnote := expected_rules c.verb hresult c.context
    exact (Script.expected_note hnote).bind fun _ _ => Script.expected_pure trivial

end MailServer.Imap
