import MailServer.Proofs.Course
import MailServer.Proofs.FailedCommand
import MailServer.Proofs.NoFailure

/-!
# Failures are reported once

Errors are classified on three layers: a method inside a batch, a request inside its stages, and the
routes. An error is classified on the layer that answers it, and on no other, so that the failures in an
answer and the events about them match one to one, whoever answers the calls.

* `Service.classified` — the events by which errors were classified.
* `Script.Quiet` — the scripts that classify nothing: provisioning, the methods, and the commands until
  they fail.
* `Jmap.Reported` — the results of a batch with the events about those that failed, one for each.
* `runs_dispatch`, `reported_process`, `Command.runs_process` — batches, requests and commands.
* `Server.failures_reported_once` — all of these together.
-/

namespace MailServer.Service

variable {α β ε σ : Type} {answer : (c : Call) → σ → c.Reply × σ}

/-! ## Quiet scripts -/

/-- The event by which an error was classified. -/
def Note.classified? : Note → Option Log.Event
  | logged event => if event.source = .classify then some event else none
  | timed _ => none

/-- The events by which errors were classified, in order. -/
def classified (notes : List Note) : List Log.Event := notes.filterMap Note.classified?

@[simp] theorem classified_nil : classified [] = [] := rfl

@[simp] theorem classified_append (before after : List Note) :
    classified (before ++ after) = classified before ++ classified after := List.filterMap_append

/-- The event that a table of rules writes about an error is one of them. -/
theorem classified_resolve (c : Log.Classifier ε α) (e : ε) (context : Log.Context) :
    classified [.logged (c.resolve e context).event] = [(c.resolve e context).event] := by
  unfold Log.Classifier.resolve
  split <;> rfl

/-- The script classifies nothing, whatever its calls are answered. -/
def Script.Quiet : Script α → Prop
  | done _ => True
  | call _ next => ∀ reply, (next reply).Quiet
  | note n next => n.classified? = none ∧ next.Quiet

namespace Script

theorem quiet_ask (c : Call) : (ask c).Quiet := fun _ => trivial

theorem quiet_log {event : Log.Event} (h : event.source ≠ .classify) : (log event).Quiet :=
  ⟨if_neg h, trivial⟩

/-- Quiet scripts one after the other. Induction on the first. -/
theorem Quiet.bind {x : Script α} {f : α → Script β} (hx : x.Quiet) (hf : ∀ a, (f a).Quiet) :
    (x >>= f).Quiet := by
  show (x.bind f).Quiet
  induction x with
  | done a => exact hf a
  | call c next ih => exact fun reply => ih reply (hx reply)
  | note n next ih => exact ⟨hx.1, ih hx.2⟩

/-- A quiet script leaves no event about an error. Induction on the script. -/
theorem Quiet.classified {x : Script α} (hx : x.Quiet) {s after : σ} {a : α} {notes : List Note}
    (h : Runs answer x s a after notes) : Service.classified notes = [] := by
  induction x generalizing s notes with
  | done a' =>
    cases h
    rfl
  | call c next ih => exact ih _ (hx _) h
  | note n next ih =>
    obtain ⟨rest, rfl, hnext⟩ := h.of_note
    exact (List.filterMap_cons_none hx.1).trans (ih hx.2 hnext)

end Script

namespace Attempt

/-- The attempt classifies nothing, whether it succeeds or not. -/
def Quiet (x : Attempt ε α) : Prop := Script.Quiet x.run

theorem quiet_pure (a : α) : Quiet (pure a : Attempt ε α) := trivial

theorem quiet_throw (e : ε) : Quiet (throw e : Attempt ε α) := trivial

theorem quiet_liftExcept (x : Except ε α) : Quiet (liftM x : Attempt ε α) := trivial

theorem quiet_mk {x : Script (Except ε α)} (h : x.Quiet) : Quiet (ExceptT.mk x) := h

theorem quiet_lift {x : Script α} (h : x.Quiet) : Quiet (liftM x : Attempt ε α) :=
  h.bind fun _ => trivial

theorem Quiet.bind {x : Attempt ε α} {f : α → Attempt ε β} (hx : Quiet x) (hf : ∀ a, Quiet (f a)) :
    Quiet (x >>= f) := by
  refine Script.Quiet.bind hx fun result => ?_
  cases result with
  | ok a => exact hf a
  | error e => trivial

end Attempt

end MailServer.Service

/-! ## Provisioning -/

namespace MailServer.Account

open Service (Attempt Script)

theorem quiet_provisionUser (caller : Caller) : (provisionUser caller).Quiet := by
  unfold provisionUser
  refine Attempt.Quiet.bind (Script.quiet_ask _) fun known => ?_
  split
  · exact Attempt.quiet_pure ()
  · refine Attempt.Quiet.bind (Script.quiet_ask _) fun _ => ?_
    exact Attempt.quiet_lift (Script.quiet_log (by simp))

theorem quiet_provisionMailbox (caller : Caller) (name : String) :
    (provisionMailbox caller name).Quiet := by
  unfold provisionMailbox
  refine Attempt.Quiet.bind (Attempt.quiet_lift (Script.quiet_ask _)) fun known => ?_
  split
  · exact Attempt.quiet_throw _
  · exact Attempt.quiet_pure ()
  · refine Attempt.Quiet.bind (Attempt.quiet_lift (Script.quiet_ask _)) fun made => ?_
    split
    · exact Attempt.quiet_lift (Script.quiet_log (by simp))
    · exact Attempt.quiet_pure ()
    · exact Attempt.quiet_throw _

theorem quiet_provisionMailboxes (caller : Caller) : (provisionMailboxes caller).Quiet := by
  unfold provisionMailboxes
  generalize defaultMailboxes = names
  induction names with
  | nil => exact Attempt.quiet_pure PUnit.unit
  | cons name names ih => exact (quiet_provisionMailbox caller name).bind fun _ => ih

end MailServer.Account

/-! ## Batches -/

namespace MailServer.Jmap

open Mailbox (Listing)
open Service (Attempt Call Note Script classified classified_append classified_resolve)

/-- The results of a batch and the events about those that failed. A result that is named otherwise than
an error has no event; an error has one, which names the rule that has chosen the form of its object, and
the error and the call that the object is about. -/
inductive Reported : List Invocation → List Result → List Log.Event → Prop
  | nil : Reported [] [] []
  | answered {i : Invocation} {r : Result} {batch : List Invocation} {results : List Result}
      {events : List Log.Event} (hname : r.name ≠ errorName) (hid : r.callId = i.callId)
      (rest : Reported batch results events) : Reported (i :: batch) (r :: results) events
  | failed {i : Invocation} {batch : List Invocation} {results : List Result}
      {event : Log.Event} {events : List Log.Event} (cause : MethodError) (context : Log.Context)
      (hevent : event = (methodRules.resolve cause context).event)
      (hfields : event.fields = [("rule", (methodRules.resolve cause context).rule),
        ("error", cause.message),
        ("context", "protocol=jmap action=" ++ i.method ++ " call_id=" ++ i.callId)])
      (rest : Reported batch results events) :
      Reported (i :: batch)
        (.failed ((methodRules.resolve cause context).action.toValue cause) i.callId :: results)
        (event :: events)

/-- There are as many events as results that are named errors. -/
theorem Reported.length_eq {batch : List Invocation} {results : List Result}
    {events : List Log.Event} (h : Reported batch results events) :
    events.length = results.countP (·.isError) := by
  induction h with
  | nil => rfl
  | answered hname _ _ ih => rw [List.countP_cons_of_neg (by simpa [Result.isError] using hname), ih]
  | failed _ _ _ _ _ ih => rw [List.countP_cons_of_pos (by rfl), List.length_cons, ih]

section Quiet

variable (caller : Caller)

theorem quiet_create (existing : List Listing) (c : Creation) : (create caller existing c).Quiet := by
  unfold create
  split
  · exact Attempt.quiet_pure _
  · refine Attempt.Quiet.bind (Attempt.quiet_lift (Script.quiet_ask _)) fun made => ?_
    split
    · exact Attempt.quiet_pure _
    · split
      · exact Attempt.quiet_pure _
      · exact Attempt.quiet_pure _
      · exact Attempt.quiet_pure _
      · exact Attempt.quiet_throw _

theorem quiet_createAll (existing : List Listing) (creations : List (String × Creation)) :
    (createAll caller existing creations).Quiet := by
  induction creations with
  | nil => exact Attempt.quiet_pure []
  | cons c creations ih =>
    refine (quiet_create caller existing c.2).bind fun _ => ?_
    exact ih.bind fun _ => Attempt.quiet_pure _

theorem quiet_parentsOf (creations : List (String × Creation)) : (parentsOf caller creations).Quiet := by
  unfold parentsOf
  split
  · refine Attempt.Quiet.bind (Attempt.quiet_lift (Script.quiet_ask _)) fun listed => ?_
    split
    · exact Attempt.quiet_pure _
    · exact Attempt.quiet_throw _
  · exact Attempt.quiet_pure []

/-- The methods themselves classify nothing, also where creations are answered as not done. -/
theorem quiet_mailboxMethods : ∀ m ∈ Methods.mailboxMethods.methods,
    m.responseName ≠ errorName ∧ ∀ v, (m.process v caller).Quiet := by
  intro m hm
  rcases List.mem_pair.mp hm with rfl | rfl
  · refine ⟨by decide, fun v => (Attempt.quiet_liftExcept _).bind fun creations => ?_⟩
    refine (quiet_parentsOf caller creations).bind fun existing => ?_
    exact (quiet_createAll caller existing creations).bind fun _ => Attempt.quiet_pure _
  · refine ⟨by decide, fun v => (Attempt.quiet_liftExcept _).bind fun ids => ?_⟩
    refine Attempt.Quiet.bind (Attempt.quiet_lift (Script.quiet_ask _)) fun listed => ?_
    cases listed with
    | error e => exact Attempt.quiet_throw _
    | ok mailboxes => exact Attempt.quiet_pure _

end Quiet

section Batch

variable {σ : Type} {answer : (c : Call) → σ → c.Reply × σ} {caller : Caller} {s after : σ}
variable {notes : List Note}

/-- A call comes to a value under the name of its method's answers, or to an error, and nothing has been
classified by then. -/
theorem runs_call {i : Invocation} {called : Except MethodError (String × Json.Value)}
    (h : Script.Runs answer (Methods.mailboxMethods.call i caller) s called after notes) :
    classified notes = [] ∧ ∀ value, called = .ok value → value.1 ≠ errorName := by
  unfold Methods.call at h
  cases hfind : Methods.mailboxMethods.find? i.method with
  | none =>
    rw [hfind] at h
    cases h
    exact ⟨rfl, nofun⟩
  | some method =>
    rw [hfind] at h
    obtain ⟨hname, hquiet⟩ := quiet_mailboxMethods caller method (List.mem_of_find?_eq_some hfind)
    obtain ⟨result, s₁, n₁, n₂, hprocess, hnamed, rfl⟩ := Script.Runs.of_bind h
    cases hnamed
    refine ⟨?_, ?_⟩
    · rw [List.append_nil]
      exact (hquiet i.arguments).classified hprocess
    · rintro value hvalue
      cases result with
      | error e => cases hvalue
      | ok v =>
        cases hvalue
        exact hname

theorem render_context (i : Invocation) :
    (Methods.context i).render = "protocol=jmap action=" ++ i.method ++ " call_id=" ++ i.callId := by
  have haction : "protocol=jmap action=" = "protocol=jmap" ++ " " ++ "action=" := rfl
  have hid : " call_id=" = " " ++ "call_id=" := rfl
  show "protocol=jmap" ++ " " ++ ("action=" ++ i.method) ++ " " ++ ("call_id=" ++ i.callId) = _
  rw [haction, hid]
  simp only [String.append_assoc]

/-- The event about an error names the rule, the error and the call. -/
theorem fields_resolve (cause : MethodError) (i : Invocation) :
    (methodRules.resolve cause (Methods.context i)).event.fields = [
      ("rule", (methodRules.resolve cause (Methods.context i)).rule), ("error", cause.message),
      ("context", "protocol=jmap action=" ++ i.method ++ " call_id=" ++ i.callId)] := by
  rw [← render_context]
  unfold Log.Classifier.resolve
  split <;> rfl

/-- A call that is carried out is answered without an event, or by an error with one. -/
theorem Reported.execute {i : Invocation} {batch : List Invocation} {r : Result}
    {results : List Result} {events : List Log.Event}
    (h : Script.Runs answer (Methods.mailboxMethods.execute i caller) s r after notes)
    (rest : Reported batch results events) :
    Reported (i :: batch) (r :: results) (classified notes ++ events) := by
  obtain ⟨called, s₁, n₁, n₂, hcall, hthen, rfl⟩ := Script.Runs.of_bind h
  obtain ⟨hquiet, hname⟩ := runs_call hcall
  rw [classified_append, hquiet, List.nil_append]
  cases called with
  | ok value =>
    cases hthen
    exact .answered (hname value rfl) rfl rest
  | error cause =>
    cases hthen
    rw [classified_resolve]
    exact .failed cause _ rfl (fields_resolve cause i) rest

/-- A batch leaves one event for each result that is named an error. Induction on the batch. -/
theorem runs_dispatch {batch : List Invocation} {results : List Result}
    (h : Script.Runs answer (Methods.mailboxMethods.dispatch caller batch) s results after notes) :
    Reported batch results (classified notes) := by
  induction batch generalizing s results notes with
  | nil =>
    cases h
    exact .nil
  | cons i batch ih =>
    obtain ⟨r, s₁, n₁, n₂, hexecute, hthen, rfl⟩ := Script.Runs.of_bind h
    obtain ⟨rest, s₂, n₃, n₄, hrest, hdone, rfl⟩ := Script.Runs.of_bind hthen
    cases hdone
    rw [List.append_nil, classified_append]
    exact .execute hexecute (ih hrest)

end Batch

end MailServer.Jmap

/-! ## Requests -/

namespace MailServer.Http

open Service (Attempt Call Note Script classified classified_append)

variable {σ : Type} {answer : (c : Call) → σ → c.Reply × σ} {s after : σ} {notes : List Note}

theorem status_failureResponse (kind : Failure) : (failureResponse kind).status = kind.status := by
  cases kind <;> rfl

namespace Stages

/-- The stages of a request classify the errors of its batch and no others. -/
theorem Course.classified {tokens : Tokens} {r : Request} {entered : List State}
    {result : Except Error Response}
    (h : Course (Jmap.stages tokens .mailboxMethods) answer r s entered result after notes) :
    (∃ batch results, Jmap.Batch.parse r.body = .ok batch ∧ result = .ok (Jmap.respond results) ∧
      Jmap.Reported batch results (classified notes)) ∨
    ∃ e, result = .error e ∧ Service.classified notes = [] := by
  have hasked : Attempt.Runs answer ((Jmap.stages tokens .mailboxMethods).authenticate r) s
      (tokens.authenticate r) s [] := Attempt.runs_liftExcept _ s
  cases h with
  | unauthenticated hauthenticate =>
    obtain ⟨-, -, rfl⟩ := Script.Runs.unique hasked hauthenticate
    exact Or.inr ⟨_, rfl, rfl⟩
  | undecoded hauthenticate hdecode =>
    obtain ⟨-, -, rfl⟩ := Script.Runs.unique hasked hauthenticate
    exact Or.inr ⟨_, rfl, rfl⟩
  | @userRefused caller _ _ _ _ _ _ hauthenticate hdecode huser =>
    obtain ⟨-, -, rfl⟩ := Script.Runs.unique hasked hauthenticate
    exact Or.inr ⟨_, rfl, (Account.quiet_provisionUser caller).classified huser⟩
  | @mailboxesRefused caller _ _ _ _ _ _ _ _ hauthenticate hdecode huser hmailboxes =>
    obtain ⟨-, -, rfl⟩ := Script.Runs.unique hasked hauthenticate
    refine Or.inr ⟨_, rfl, ?_⟩
    rw [List.nil_append, classified_append, (Account.quiet_provisionUser caller).classified huser,
      (Account.quiet_provisionMailboxes caller).classified hmailboxes]
    rfl
  | @handled caller batch _ _ _ s₃ _ _ _ _ n₄ hauthenticate hdecode huser hmailboxes hhandle =>
    obtain ⟨-, -, rfl⟩ := Script.Runs.unique hasked hauthenticate
    obtain ⟨results, s₅, n₅, hdispatch⟩ :=
      Script.runs_total answer (Jmap.Methods.mailboxMethods.dispatch caller batch) s₃
    -- the handler does not fail: it answers with the results of the batch
    have hanswered : Attempt.Runs answer ((Jmap.stages tokens .mailboxMethods).handle batch caller) s₃
        (.ok (Jmap.respond results)) s₅ (n₅ ++ []) :=
      Attempt.Runs.bind (x := liftM (Jmap.Methods.mailboxMethods.dispatch caller batch))
        (hdispatch.map Except.ok) (Attempt.runs_pure _ _)
    obtain ⟨rfl, rfl, rfl⟩ := Script.Runs.unique hanswered hhandle
    refine Or.inl ⟨batch, results, hdecode, rfl, ?_⟩
    rw [List.nil_append, List.append_nil, classified_append, classified_append,
      (Account.quiet_provisionUser caller).classified huser,
      (Account.quiet_provisionMailboxes caller).classified hmailboxes]
    exact Jmap.runs_dispatch hdispatch

/-- A request is answered with the results of its batch, and the events are about these; or it is answered
by the kind of a failure, and the one event is about this. -/
theorem reported_process (tokens : Tokens) (r : Request)
    (answer : (c : Call) → σ → c.Reply × σ) (s : σ) :
    let run := ((Jmap.stages tokens .mailboxMethods).process r).run answer s
    (∃ batch results, Jmap.Batch.parse r.body = .ok batch ∧ run.1.1 = Jmap.respond results ∧
      Jmap.Reported batch results (classified run.2.2)) ∨
    ∃ e context, run.1.1 = failureResponse (transportRules.resolve e context).action ∧
      Service.classified run.2.2 = [(transportRules.resolve e context).event] := by
  intro run
  obtain ⟨entered, result, after, notes, hcourse⟩ :=
    exists_course (Jmap.stages tokens .mailboxMethods) answer r s
  have hrun : run = _ := hcourse.runs_process
  have htiming : Service.classified (timing (Jmap.stages tokens .mailboxMethods) entered) = [] := by
    unfold timing
    split <;> rfl
  rw [hrun, classified_append, classified_append, htiming, List.append_nil]
  rcases hcourse.classified with ⟨batch, results, hbatch, rfl, hreported⟩ | ⟨e, rfl, hquiet⟩
  · exact Or.inl ⟨batch, results, hbatch, rfl, by simpa [report] using hreported⟩
  · refine Or.inr ⟨e, .ofList [("path", r.path)], ?_, ?_⟩
    · rw [resolve_action]
      rfl
    · rw [hquiet]
      exact Service.classified_resolve transportRules e _

end Stages

end MailServer.Http

/-! ## Commands -/

namespace MailServer.Imap

open Service (Attempt Call Note Script classified classified_append)

variable {σ : Type} {answer : (c : Call) → σ → c.Reply × σ} {s after : σ} {notes : List Note}

theorem Session.quiet_poll (session : Session) : session.poll.Quiet := by
  unfold poll
  split
  · exact Attempt.quiet_pure _
  · refine Attempt.Quiet.bind (Attempt.quiet_mk (Script.quiet_ask _)) fun status => ?_
    split <;> exact Attempt.quiet_pure _

theorem Session.untagged_poll {session polled : Session} {news : List Response}
    (h : Attempt.Runs answer session.poll s (.ok (polled, news)) after notes) :
    news.filterMap Response.tagged? = [] := by
  unfold poll at h
  split at h
  · cases h
    rfl
  · obtain ⟨status, s₁, n₁, n₂, -, hthen⟩ := h.of_bind_ok
    split at hthen <;> cases hthen <;> rfl

namespace Command

theorem quiet_attempt (c : Command) (session : Session) : (c.attempt session).Quiet := by
  unfold attempt
  cases c.verb with
  | create =>
    refine (Attempt.quiet_liftExcept _).bind fun path => ?_
    refine (Attempt.quiet_mk (Script.quiet_ask _)).bind fun id => ?_
    exact session.quiet_poll.bind fun _ => Attempt.quiet_pure _
  | select =>
    refine (Attempt.quiet_liftExcept _).bind fun path => ?_
    exact (Attempt.quiet_mk (Script.quiet_ask _)).bind fun status => Attempt.quiet_pure _

/-- The answer to a command that succeeds ends in its one tagged line. -/
theorem lines_of_attempt {c : Command} {session : Session} {result : Session × List Response}
    (h : Attempt.Runs answer (c.attempt session) s (.ok result) after notes) :
    ∃ news code, result.2 = news ++ [c.completed code] ∧ news.filterMap Response.tagged? = [] := by
  unfold attempt at h
  cases hverb : c.verb with
  | create =>
    rw [hverb] at h
    obtain ⟨path, s₁, n₁, n₂, -, hpath⟩ := Attempt.Runs.of_bind_ok h
    obtain ⟨id, s₂, n₃, n₄, -, hcreated⟩ := hpath.of_bind_ok
    obtain ⟨⟨polled, news⟩, s₃, n₅, n₆, hpolled, hdone⟩ := hcreated.of_bind_ok
    cases hdone
    exact ⟨news, none, rfl, Session.untagged_poll hpolled⟩
  | select =>
    rw [hverb] at h
    obtain ⟨path, s₁, n₁, n₂, -, hpath⟩ := Attempt.Runs.of_bind_ok h
    obtain ⟨status, s₂, n₃, n₄, -, hdone⟩ := hpath.of_bind_ok
    cases hdone
    exact ⟨openingLines status, some .readWrite, rfl, rfl⟩

/-- A command is answered by one tagged line behind untagged ones. It is OK, and no event is about an
error; or the rules of the command have chosen it for an error, and the one event is about this. -/
theorem runs_process (c : Command) (session : Session) (answer : (c : Call) → σ → c.Reply × σ) (s : σ) :
    let run := (c.process session).run answer s
    ∃ news line, run.1.2 = news ++ [.tagged line] ∧ news.filterMap Response.tagged? = [] ∧
      line.tag = c.tag ∧
      ((line.status = .ok ∧ classified run.2.2 = []) ∨
        ∃ cause, line.status ≠ .ok ∧
          line = (c.verb.rules.resolve cause c.context).action.line c.tag c.verb.name ∧
          classified run.2.2 = [(c.verb.rules.resolve cause c.context).event]) := by
  intro run
  obtain ⟨result, after, notes, hattempt⟩ := Attempt.runs_total answer (c.attempt session) s
  have hquiet : classified notes = [] := (c.quiet_attempt session).classified hattempt
  cases result with
  | ok result =>
    obtain ⟨news, code, hlines, hnews⟩ := lines_of_attempt hattempt
    have hrun : run = _ := runs_process_ok hattempt
    rw [hrun, List.append_nil]
    exact ⟨news, _, hlines, hnews, rfl, Or.inl ⟨rfl, hquiet⟩⟩
  | error cause =>
    have hrun : run = _ := runs_process_error hattempt
    rw [hrun, classified_append, hquiet, Service.classified_resolve]
    exact ⟨[], _, rfl, rfl, rfl, Or.inr ⟨cause, status_of_rules c.verb cause c.context, rfl, rfl⟩⟩

end Command

end MailServer.Imap

/-! ## A server -/

namespace MailServer.Server

open Service (Call Script classified)

variable {config : Config} {tokens : Http.Tokens} {σ : Type}

/-- An `OPTIONS` request is answered without a look at who sends it or at what is in it. -/
theorem dispatch_options (config : Config) (tokens : Http.Tokens) {r : Http.Request}
    (h : r.method = .options) :
    ∃ response, (apiRoutes config tokens).dispatch r = pure response ∧
      (response.status = 200 ∨ response.status = 404) := by
  have hpost : ¬ (Http.Endpoint.mk .post config.endpoint).isMatch r = true := by
    simp [Http.Endpoint.isMatch, h]
  unfold Http.Routes.dispatch Http.Routes.find
  rw [if_pos h, routes_apiRoutes, List.find?_cons_of_neg (by exact hpost), List.find?_singleton]
  split <;> rename_i hfound <;> split at hfound <;> cases hfound
  · exact ⟨_, rfl, Or.inl rfl⟩
  · exact ⟨_, rfl, Or.inr rfl⟩

/-- Any other request is answered by its stages, or the routes find fault with its version, or there is
no route for it. -/
theorem reported_dispatch (config : Config) (tokens : Http.Tokens) {r : Http.Request}
    (h : r.method ≠ .options) (answer : (c : Call) → σ → c.Reply × σ) (s : σ) :
    let run := ((apiRoutes config tokens).dispatch r).run answer s
    (∃ batch results, Jmap.Batch.parse r.body = .ok batch ∧
      run.1 = (origins config).apply (Jmap.respond results) ∧
      Jmap.Reported batch results (classified run.2.2)) ∨
    (∃ e context, classified run.2.2 = [(Http.transportRules.resolve e context).event] ∧
      (run.1 = Http.failureResponse (Http.transportRules.resolve e context).action ∨
        run.1 = (origins config).apply
          (Http.failureResponse (Http.transportRules.resolve e context).action))) ∨
    run.1 = .ofStatus 404 ∧ classified run.2.2 = [] := by
  intro run
  have hway := dispatched config tokens r
  unfold run
  generalize (apiRoutes config tokens).dispatch r = script at hway ⊢
  cases hway with
  | handled hadmits =>
    obtain ⟨done, after, notes, hprocess⟩ :=
      Script.runs_total answer ((Jmap.stages tokens .mailboxMethods).process r) s
    have hreported := Http.Stages.reported_process tokens r answer s
    rw [hprocess] at hreported
    have hanswer : Script.run answer _ s = _ := (hprocess.map (·.1)).map (origins config).apply
    rw [Http.Stages.handler, hanswer]
    rcases hreported with ⟨batch, results, hbatch, hresponse, hevents⟩ | ⟨e, context, hresponse, hevent⟩
    · exact Or.inl ⟨batch, results, hbatch, congrArg (origins config).apply hresponse, hevents⟩
    · exact Or.inr (Or.inl ⟨e, context, hevent, Or.inr (congrArg (origins config).apply hresponse)⟩)
  | preflight hmethod => exact absurd hmethod h
  | notFound hadmits => exact Or.inr (Or.inr ⟨rfl, rfl⟩)
  | @unsupported version context hversion =>
    have hevent := Service.classified_resolve Http.transportRules (.unsupportedVersion version) context
    exact Or.inr (Or.inl ⟨_, context, hevent, Or.inl rfl⟩)

/-- **Every failure is reported once**, in every state and whoever answers the calls. A request that a
started server answers with 200, other than one sent ahead, is answered with the results of its batch, and
the events about errors are one for each result that is named an error: in their order, with the rule and
the error that the object of the result was made from, and the call. Creations that are answered as not
done have none. A request that is answered with 400, 401 or 500 has one, whose action is the kind of
failure that the response was made from. A request that finds no route, or is sent ahead, has none. A
command has none where its one tagged line is OK, and one where it is NO or BAD, from the rule that has
chosen the line. -/
theorem failures_reported_once {hasLog : Bool} {readable : String → Bool} {server : Server}
    (hstart : (start (.ok config) tokens hasLog readable).1 = .ok server)
    (answer : (c : Call) → σ → c.Reply × σ) (s : σ) :
    (∀ r : Http.Request,
      let run := (server.routes.dispatch r).run answer s
      let events := classified run.2.2
      run.1.status ∈ [200, 400, 401, 404, 500] ∧
      (run.1.status = 200 → r.method ≠ .options → ∃ batch results,
        Jmap.Batch.parse r.body = .ok batch ∧
        run.1 = (origins config).apply (Jmap.respond results) ∧
        Jmap.Reported batch results events ∧ events.length = results.countP (·.isError)) ∧
      (run.1.status ∈ [400, 401, 500] → ∃ e context,
        let verdict := Http.transportRules.resolve e context
        events = [verdict.event] ∧ verdict.action.status = run.1.status ∧
        (run.1 = Http.failureResponse verdict.action ∨
          run.1 = (origins config).apply (Http.failureResponse verdict.action))) ∧
      (run.1.status = 404 ∨ r.method = .options → events = [])) ∧
    ∀ (c : Imap.Command) (session : Imap.Session),
      let run := (c.process session).run answer s
      let events := classified run.2.2
      ∃ news line, run.1.2 = news ++ [.tagged line] ∧ news.filterMap Imap.Response.tagged? = [] ∧
        line.tag = c.tag ∧
        (line.status = .ok → events = []) ∧
        (line.status ≠ .ok → ∃ cause, let verdict := c.verb.rules.resolve cause c.context
          events = [verdict.event] ∧ line = verdict.action.line c.tag c.verb.name) := by
  obtain ⟨-, rfl⟩ := eq_of_start hstart
  refine ⟨fun r => ?_, fun c session => ?_⟩
  · intro run events
    by_cases hoptions : r.method = .options
    · obtain ⟨response, hpure, hstatus⟩ := dispatch_options config tokens hoptions
      have hrun : run = (response, s, []) := congrArg (Script.run answer · s) hpure
      rw [show events = [] from congrArg (classified ·.2.2) hrun, hrun]
      refine ⟨?_, fun _ hnot => absurd hoptions hnot, ?_, fun _ => rfl⟩
      · rcases hstatus with h | h <;> simp [h]
      · rcases hstatus with h | h <;> simp [h]
    -- what is left is answered with the results of a batch, by a kind of failure, or not found
    rcases reported_dispatch config tokens hoptions answer s with
      ⟨batch, results, hbatch, hresponse, hreported⟩ | ⟨e, context, hevent, hresponse⟩ |
        ⟨hresponse, hevents⟩
    · have hstatus : run.1.status = 200 := congrArg (·.status) hresponse
      refine ⟨by simp [hstatus], ?_, by simp [hstatus], by simp [hstatus, hoptions]⟩
      exact fun _ _ => ⟨batch, results, hbatch, hresponse, hreported, hreported.length_eq⟩
    · have hstatus : run.1.status = (Http.transportRules.resolve e context).action.status := by
        rcases hresponse with h | h <;> rw [show run.1 = _ from h] <;> exact Http.status_failureResponse _
      have hfailed : run.1.status ≠ 200 ∧ run.1.status ≠ 404 ∧
          run.1.status ∈ [200, 400, 401, 404, 500] := by
        rw [hstatus]
        cases (Http.transportRules.resolve e context).action <;> decide
      obtain ⟨hfine, hfound, hmem⟩ := hfailed
      refine ⟨hmem, fun hok => absurd hok hfine, ?_, fun hnone => (hnone.elim hfound hoptions).elim⟩
      exact fun _ => ⟨e, context, hevent, hstatus.symm, hresponse⟩
    · have hstatus : run.1.status = 404 := congrArg (·.status) hresponse
      exact ⟨by simp [hstatus], by simp [hstatus], by simp [hstatus], fun _ => hevents⟩
  · obtain ⟨news, line, hlines, hnews, htag, hreported⟩ :=
      Imap.Command.runs_process c session answer s
    refine ⟨news, line, hlines, hnews, htag, ?_⟩
    rcases hreported with ⟨hok, hquiet⟩ | ⟨cause, hrefused, hline, hevent⟩
    · exact ⟨fun _ => hquiet, fun hno => absurd hok hno⟩
    · exact ⟨fun hok => absurd hok hrefused, fun _ => ⟨cause, hevent, hline⟩⟩

/-- A batch with one call, of a method that there is not: the request succeeds, the one result is an error,
and one event is about it. -/
theorem failures_reported_once_unknown_method :
    let config := Config.standard
    let readable : String → Bool := (· == "info")
    let tokens := (Http.Tokens.empty config.delimiter).register "token" "ann"
    let server : Server := ⟨config, apiRoutes config tokens⟩
    -- the body is [["f",{},"c"]]
    let r : Http.Request := ⟨.post, "/jmap", Http.Headers.empty.insert "Authorization" "Bearer token",
      [0x5B, 0x5B, 0x22, 0x66, 0x22, 0x2C, 0x7B, 0x7D, 0x2C, 0x22, 0x63, 0x22, 0x5D, 0x5D]⟩
    let run := (server.routes.dispatch r).run Service.Backend.answer (.empty 255 '.')
    (start (.ok config) tokens false readable).1 = .ok server ∧ run.1.status = 200 ∧
    (classified run.2.2).map (·.message) = ["rejected unknown method"] ∧
    ∃ batch results, Jmap.Batch.parse r.body = .ok batch ∧
      run.1 = (origins config).apply (Jmap.respond results) ∧
      Jmap.Reported batch results (classified run.2.2) ∧ results.countP (·.isError) = 1 := by
  intro config readable tokens server r run
  have hvalid : config.validate = .ok () := validate_iff.mpr (by decide +kernel)
  have hstart : (start (.ok config) tokens false readable).1 = .ok server :=
    start_of_validate hvalid (Or.inr (by decide +kernel))
  have hstatus : run.1.status = 200 := by decide +kernel
  have hevents : (classified run.2.2).map (·.message) = ["rejected unknown method"] := by
    decide +kernel
  have hrequest := (failures_reported_once hstart Service.Backend.answer (.empty 255 '.')).1 r
  obtain ⟨batch, results, hbatch, hresponse, hreported, hcount⟩ := hrequest.2.1 hstatus (by decide)
  refine ⟨hstart, hstatus, hevents, batch, results, hbatch, hresponse, hreported, ?_⟩
  rw [← hcount]
  simpa using congrArg List.length hevents

end MailServer.Server
