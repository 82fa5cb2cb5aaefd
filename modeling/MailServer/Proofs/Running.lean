import MailServer.Proofs.Expected
import MailServer.Proofs.Isolation
import MailServer.Proofs.Request
import MailServer.Proofs.Results
import MailServer.Proofs.World
import MailServer.Server

/-!
# A running server

A server that has started answers requests by its routes and commands in its sessions, all on one
store. The configuration gives the limit and the delimiter of the store and of the sessions.

* `Admits`, `Dispatched` — the requests that the endpoint takes, and what the routes do with others.
* `dispatch_of_admits`, `dispatch_of_not_admits` — a POST in the version served, taken or not.
* `respond`, `run` — what a server answers and logs, and what a run of events leaves.
* `run_keeps` — what every call and every delivery keeps, every run keeps; `keeps_run`, `sound_run`.
* `Replied`, `exists_reply` — how a request is answered, where default names are within the limit.
-/

namespace MailServer.Server

open Http (Origins Response Version)
open Mailbox (Store)
open Service (Backend Note Script)
open Service.Backend
open Shared (Event State)

/-! ## Routes -/

/-- The endpoint takes the request: a POST to its path or below, in the version served. -/
structure Admits (config : Config) (r : Http.Request) : Prop where
  endpoint : (Http.Endpoint.mk .post config.endpoint).isMatch r = true
  version : Version.ofRequest r = .ok .draft

theorem Admits.post {config : Config} {r : Http.Request} (h : Admits config r) : r.method = .post := by
  have hmatch := h.endpoint
  rw [Http.Endpoint.isMatch, Bool.and_eq_true, beq_iff_eq] at hmatch
  exact hmatch.1

/-- The origins that the responses of a configuration admit. -/
def origins (config : Config) : Origins := ⟨config.allowOrigin⟩

/-- What the routes do with a request. -/
inductive Dispatched (config : Config) (tokens : Http.Tokens) (r : Http.Request) :
    Script Response → Prop
  | handled (h : Admits config r) :
      Dispatched config tokens r
        ((origins config).apply <$> (Jmap.stages tokens .mailboxMethods).handler r)
  | preflight (h : r.method = .options) :
      Dispatched config tokens r (pure ((origins config).apply (.ofStatus 200)))
  | notFound (h : ¬ Admits config r) : Dispatched config tokens r (pure (.ofStatus 404))
  | unsupported {version : String} (context : Log.Context)
      (h : Version.ofRequest r = .error (.unsupportedVersion version)) :
      Dispatched config tokens r do
        let verdict := Http.transportRules.resolve (.unsupportedVersion version) context
        Service.log verdict.event
        pure (Http.failureResponse verdict.action)

theorem version_cases (r : Http.Request) :
    (∃ version, Version.ofRequest r = .ok version) ∨
    ∃ version, Version.ofRequest r = .error (.unsupportedVersion version) := by
  have hparse : ∀ value, (∃ version, Version.parse value = .ok version) ∨
      ∃ version, Version.parse value = .error (.unsupportedVersion version) := by
    intro value
    unfold Version.parse
    dsimp only
    split
    · exact Or.inl ⟨_, rfl⟩
    split
    · exact Or.inl ⟨_, rfl⟩
    · exact Or.inr ⟨_, rfl⟩
  unfold Version.ofRequest Version.ofAccept
  split
  · split
    · exact hparse _
    · exact Or.inl ⟨_, rfl⟩
  · exact Or.inl ⟨_, rfl⟩

/-- The two routes of a server. -/
theorem routes_apiRoutes (config : Config) (tokens : Http.Tokens) : (apiRoutes config tokens).routes = [
    ⟨⟨.post, config.endpoint⟩, .draft, (origins config).wrap (Jmap.stages tokens .mailboxMethods).handler⟩,
    ⟨⟨.options, config.endpoint⟩, .draft, (origins config).wrap Http.preflight⟩] := rfl

/-- What browsers send ahead matches the second route only, and all else the first only. -/
theorem dispatched (config : Config) (tokens : Http.Tokens) (r : Http.Request) :
    Dispatched config tokens r ((apiRoutes config tokens).dispatch r) := by
  unfold Http.Routes.dispatch Http.Routes.find
  rw [routes_apiRoutes]
  -- an OPTIONS request is matched without its version, and by the second route only
  by_cases hmethod : r.method = .options
  · have hpost : ¬ (Http.Endpoint.mk .post config.endpoint).isMatch r = true := by
      simp [Http.Endpoint.isMatch, hmethod]
    rw [if_pos hmethod, List.find?_cons_of_neg (by exact hpost), List.find?_singleton]
    by_cases hahead : (Http.Endpoint.mk .options config.endpoint).isMatch r = true
    · rw [if_pos (by exact hahead)]
      exact .preflight hmethod
    · rw [if_neg (by exact hahead)]
      exact .notFound fun h => hpost h.endpoint
  · have hahead : ¬ (Http.Endpoint.mk .options config.endpoint).isMatch r = true := by
      simp [Http.Endpoint.isMatch, hmethod]
    rw [if_neg hmethod]
    rcases version_cases r with ⟨version, hversion⟩ | ⟨version, hversion⟩
    · rw [hversion]
      dsimp only [bind, Except.bind, pure, Except.pure]
      by_cases hadmits : Admits config r
      · have hdraft : version = .draft := Except.ok.inj (hversion.symm.trans hadmits.version)
        rw [List.find?_cons_of_pos (by simp [hdraft, hadmits.endpoint])]
        exact .handled hadmits
      · have hother : ¬ (Version.draft == version && (Http.Endpoint.mk .post config.endpoint).isMatch r) := by
          intro h
          rw [Bool.and_eq_true, beq_iff_eq] at h
          exact hadmits ⟨h.2, hversion.trans (congrArg Except.ok h.1.symm)⟩
        rw [List.find?_cons_of_neg (by exact hother), List.find?_cons_of_neg (by simp [hahead])]
        exact .notFound hadmits
    · rw [hversion]
      exact .unsupported _ hversion

section Routed

variable {config : Config} {tokens : Http.Tokens} {r : Http.Request}

theorem dispatch_of_admits (h : Admits config r) : (apiRoutes config tokens).dispatch r =
    (origins config).apply <$> (Jmap.stages tokens .mailboxMethods).handler r := by
  have hway := dispatched config tokens r
  generalize (apiRoutes config tokens).dispatch r = script at hway ⊢
  cases hway with
  | handled _ => rfl
  | preflight hmethod => exact nomatch h.post.symm.trans hmethod
  | notFound hnot => exact absurd h hnot
  | unsupported _ hversion => exact nomatch h.version.symm.trans hversion

theorem dispatch_of_not_admits (hpost : r.method = .post) (hversion : Version.ofRequest r = .ok .draft)
    (h : ¬ Admits config r) : (apiRoutes config tokens).dispatch r = pure (.ofStatus 404) := by
  have hway := dispatched config tokens r
  generalize (apiRoutes config tokens).dispatch r = script at hway ⊢
  cases hway with
  | handled hadmits => exact absurd hadmits h
  | preflight hmethod => exact nomatch hpost.symm.trans hmethod
  | notFound _ => rfl
  | unsupported _ hunsupported => exact nomatch hversion.symm.trans hunsupported

end Routed

/-! ## Events -/

/-- What an event is answered with. -/
inductive Answer where
  | response (response : Response)
  | lines (lines : List Imap.Response)
  | delivered (reply : Except Mailbox.Error UInt32)

/-- A server that has just started, with a store for its configuration. -/
def fresh (server : Server) : State :=
  ⟨.empty server.config.maxNameLength.toNat server.config.delimiter, fun _ _ => none⟩

/-- What an event is answered with, the notes made on the way, and the state after it. -/
def respond (server : Server) (s : State) : Event → Answer × List Note × State
  | .request r =>
    let done := s.backend.run (server.routes.dispatch r)
    (.response done.1, done.2.2, { s with backend := done.2.1 })
  | .command user k c =>
    let session := { server.session user with selected := s.selected user k }
    let done := s.backend.run (c.process session)
    (.lines done.1.2, done.2.2,
      ⟨done.2.1, Function.update s.selected user
        (Function.update (s.selected user) k done.1.1.selected)⟩)
  | .deliver path =>
    let done := s.backend.store.deliver path
    (.delivered done.1, [], { s with backend := { s.backend with store := done.2 } })

/-- The state after events, one after the other. -/
def run (server : Server) (events : List Event) (s : State) : State :=
  events.foldl (fun s e => (respond server s e).2.2) s

theorem run_append (server : Server) (before after : List Event) (s : State) :
    run server (before ++ after) s = run server after (run server before s) := List.foldl_append

section Keeps

variable {server : Server} {P : Backend → Prop} (hcall : ∀ c b, P b → P (b.answer c).2)
variable (hdeliver : ∀ p b, P b → P { b with store := (b.store.deliver p).2 })
include hcall hdeliver

theorem respond_keeps {s : State} (h : P s.backend) (e : Event) :
    P (respond server s e).2.2.backend := by
  cases e with
  | request r => exact outcome_keeps hcall (server.routes.dispatch r) h
  | command user k c => exact outcome_keeps hcall (c.process _) h
  | deliver p => exact hdeliver p s.backend h

/-- What every call and every delivery keeps, every run keeps. Induction on the events. -/
theorem run_keeps {s : State} (h : P s.backend) (events : List Event) :
    P (run server events s).backend := by
  induction events generalizing s with
  | nil => exact h
  | cons e events ih => exact ih (respond_keeps hcall hdeliver h e)

end Keeps

/-- Nothing is lost in a run, and the limit and the delimiter stay. -/
theorem keeps_run (server : Server) (events : List Event) (s : State) :
    Store.Keeps s.backend.store (run server events s).backend.store :=
  run_keeps (P := fun b => Store.Keeps s.backend.store b.store)
    (fun c b hb => hb.trans (Backend.keeps_answer c b))
    (fun p b hb => hb.trans (Store.keeps_deliver b.store p)) (Store.Keeps.refl _) events

theorem sound_run (server : Server) (events : List Event) :
    Store.Sound (run server events server.fresh).backend.store :=
  run_keeps (P := fun b => Store.Sound b.store) (fun c _ hb => World.sound_answer hb c)
    (fun p _ hb => hb.deliver p) (Store.Sound.empty _ _) events

/-- The limit on names is the configured one. -/
theorem limit_run (server : Server) (events : List Event) :
    (run server events server.fresh).backend.store.limit = server.config.maxNameLength.toNat :=
  (keeps_run server events server.fresh).limit

/-! ## Answers to requests -/

/-- How a request is answered where the state is `b`. -/
inductive Replied (config : Config) (tokens : Http.Tokens) (b : Backend) (r : Http.Request) :
    Response → Prop
  | results {caller : Caller} {batch : List Jmap.Invocation} {results : List Jmap.Result}
      (hadmits : Admits config r) (hcaller : tokens.authenticate r = .ok caller)
      (hbatch : Jmap.Batch.parse r.body = .ok batch)
      (hresults : (Jmap.carried caller batch b).1 = .ok results) :
      Replied config tokens b r ((origins config).apply (Jmap.respond results))
  | undecoded {caller : Caller} {e : Http.Error} (hadmits : Admits config r)
      (hcaller : tokens.authenticate r = .ok caller) (hbatch : Jmap.Batch.parse r.body = .error e) :
      Replied config tokens b r ((origins config).apply (Http.failureResponse .badRequest))
  | unauthenticated {e : Http.CredentialError} (hadmits : Admits config r)
      (hcaller : tokens.authenticate r = .error e) :
      Replied config tokens b r ((origins config).apply (Http.failureResponse .unauthorized))
  | unsupported (h : ¬ Admits config r) :
      Replied config tokens b r (Http.failureResponse .badRequest)
  | preflight (h : r.method = .options) :
      Replied config tokens b r ((origins config).apply (.ofStatus 200))
  | notFound (h : ¬ Admits config r) : Replied config tokens b r (.ofStatus 404)

/-- A body that is no batch is the client's fault. -/
theorem kind_of_parse_error {body : List UInt8} {e : Http.Error} (h : Jmap.Batch.parse body = .error e) :
    e.kind = .badRequest := by
  unfold Jmap.Batch.parse Jmap.Batch.parseAs at h
  split at h
  · cases h
    rfl
  · unfold Jmap.Batch.checkArguments at h
    split at h
    · cases h
      rfl
    · cases h

/-- A failure that is the client's has a rule. -/
theorem expected_report {e : Http.Error} (h : e.kind ≠ .internal) (context : Log.Context) :
    (Note.logged (Http.transportRules.resolve e context).event).Expected := by
  have hnames : ∀ rule ∈ Http.transportRules.rules, rule.name ≠ Log.fallbackName := by decide
  refine Http.transportRules.expected_resolve hnames ?_ context
  cases hkind : e.kind with
  | badRequest => exact ⟨_, List.mem_cons_self, by simp [hkind]⟩
  | unauthorized => exact ⟨_, List.mem_cons_of_mem _ List.mem_cons_self, by simp [hkind]⟩
  | internal => exact absurd hkind h

section Requests

variable {config : Config} {tokens : Http.Tokens} {r : Http.Request} {b : Backend}

/-- Provisioning a user does not fail, and no call of a batch is answered by a `serverFail`. What the calls
are answered with can be read back. -/
theorem carried_fine (hshort : ∀ name ∈ Account.defaultMailboxes, name.length ≤ b.store.limit)
    (caller : Caller) (batch : List Jmap.Invocation) :
    ∃ results, (Jmap.carried caller batch b).1 = .ok results ∧
      results.map (·.callId) = batch.map (·.callId) ∧ (∀ x ∈ results, ¬ x.IsServerFail) ∧
      ∀ x ∈ results, x.Readable := by
  have hprovision : (Account.provision caller).Expected b.store.limit (fun _ => False) fun _ => True :=
    (Account.expected_provisionUser caller).bind fun _ _ =>
      Account.expected_provisionMailboxes caller hshort
  obtain ⟨result, between, notes, hrun⟩ :=
    Service.Attempt.runs_total Backend.answer (Account.provision caller) b
  obtain ⟨hdone, -, hlimit⟩ := hprovision.run rfl hrun
  cases result with
  | error e => exact hdone.elim
  | ok u =>
    rw [Jmap.carried_of_provision (outcome_of_runs hrun)]
    obtain ⟨results, after, notes, hbatch⟩ := Script.runs_total Backend.answer
      (Jmap.Methods.mailboxMethods.dispatch caller batch) between
    obtain ⟨hresults, -, -⟩ := (Jmap.expected_dispatch caller batch).run hlimit hbatch
    have hdispatched : Jmap.dispatched caller batch between = (results, after) := outcome_of_runs hbatch
    exact ⟨results, by rw [hdispatched], hresults.1, hresults.2, (Jmap.readable_dispatch hbatch).1⟩

/-- Where the default names are within the limit a request fails on its sender or on its body only. -/
theorem course_cases (hshort : ∀ name ∈ Account.defaultMailboxes, name.length ≤ b.store.limit)
    {entered : List Http.State} {result : Except Http.Error Response} {after : Backend}
    {notes : List Note}
    (h : Http.Stages.Course (Jmap.stages tokens .mailboxMethods) Backend.answer r b entered result after
      notes) :
    (∀ n ∈ notes, n.Expected) ∧
    ((∃ e, tokens.authenticate r = .error e ∧ result = .error (.unauthorized e)) ∨
      ∃ caller, tokens.authenticate r = .ok caller ∧
        ((∃ e, Jmap.Batch.parse r.body = .error e ∧ result = .error e) ∨
          ∃ batch response, Jmap.Batch.parse r.body = .ok batch ∧ result = .ok response)) := by
  have hasked : Service.Attempt.Runs Backend.answer
      ((Jmap.stages tokens .mailboxMethods).authenticate r) b
      (tokens.authenticate r) b [] := Service.Attempt.runs_liftExcept _ b
  cases h with
  | unauthenticated hauthenticate =>
    obtain ⟨hcaller, rfl, rfl⟩ := Script.Runs.unique hasked hauthenticate
    exact ⟨by simp, Or.inl ⟨_, hcaller, rfl⟩⟩
  | undecoded hauthenticate hdecode =>
    obtain ⟨hcaller, rfl, rfl⟩ := Script.Runs.unique hasked hauthenticate
    exact ⟨by simp, Or.inr ⟨_, hcaller, Or.inl ⟨_, hdecode, rfl⟩⟩⟩
  -- neither step of provisioning can be refused: the registry works, and the names are within the limit
  | userRefused hauthenticate hdecode huser =>
    obtain ⟨hcaller, rfl, rfl⟩ := Script.Runs.unique hasked hauthenticate
    exact ((Account.expected_provisionUser _).run rfl huser).1.elim
  | mailboxesRefused hauthenticate hdecode huser hmailboxes =>
    obtain ⟨hcaller, rfl, rfl⟩ := Script.Runs.unique hasked hauthenticate
    obtain ⟨-, -, hlimit⟩ := (Account.expected_provisionUser _).run rfl huser
    exact ((Account.expected_provisionMailboxes _ hshort).run hlimit hmailboxes).1.elim
  | @handled caller batch _ _ _ _ _ _ _ _ _ hauthenticate hdecode huser hmailboxes hhandle =>
    obtain ⟨hcaller, rfl, rfl⟩ := Script.Runs.unique hasked hauthenticate
    obtain ⟨-, huserNotes, hlimit⟩ := (Account.expected_provisionUser _).run rfl huser
    obtain ⟨-, hmailboxNotes, hlimit⟩ :=
      (Account.expected_provisionMailboxes _ hshort).run hlimit hmailboxes
    obtain ⟨hresult, hhandleNotes, -⟩ :=
      (Jmap.expected_handle tokens batch caller).run hlimit hhandle
    refine ⟨?_, Or.inr ⟨caller, hcaller, Or.inr ?_⟩⟩
    · simp only [List.mem_append, List.not_mem_nil, false_or]
      rintro n ((hn | hn) | hn)
      · exact huserNotes n hn
      · exact hmailboxNotes n hn
      · exact hhandleNotes n hn
    · cases result with
      | error e => exact hresult.elim
      | ok response => exact ⟨batch, response, hdecode, rfl⟩

/-- What the request itself notes is expected, where a failure is not internal. -/
theorem expected_own {stages : Http.Stages (List Jmap.Invocation)} (entered : List Http.State)
    {result : Except Http.Error Response} (h : ∀ e, result = .error e → e.kind ≠ .internal) :
    ∀ n ∈ Http.Stages.timing stages entered ++ Http.Stages.report r result, n.Expected := by
  rw [List.forall_mem_append]
  constructor
  · unfold Http.Stages.timing
    split <;> simp [Note.Expected]
  · cases result with
    | ok response => simp [Http.Stages.report]
    | error e => simpa [Http.Stages.report] using expected_report (h e rfl) (.ofList [("path", r.path)])

/-- The handler of the endpoint answers with what the request carries, or finds fault with the client. -/
theorem exists_handled (hshort : ∀ name ∈ Account.defaultMailboxes, name.length ≤ b.store.limit)
    (hadmits : Admits config r) :
    ∃ response after notes,
      Script.Runs Backend.answer ((Jmap.stages tokens .mailboxMethods).handler r) b response after notes ∧
      (∀ n ∈ notes, n.Expected) ∧ Replied config tokens b r ((origins config).apply response) := by
  obtain ⟨entered, result, after, notes, hcourse⟩ :=
    Http.Stages.exists_course (Jmap.stages tokens .mailboxMethods) Backend.answer r b
  obtain ⟨hnotes, hcases⟩ := course_cases hshort hcourse
  have hrun := hcourse.runs_process.map (·.1)
  refine ⟨_, after, _, hrun, ?_⟩
  rw [List.append_assoc, List.forall_mem_append]
  rcases hcases with ⟨e, hcaller, rfl⟩ | ⟨caller, hcaller, hbatch⟩
  · exact ⟨⟨hnotes, expected_own entered (by rintro _ ⟨⟩; nofun)⟩, .unauthenticated hadmits hcaller⟩
  rcases hbatch with ⟨e, hbatch, rfl⟩ | ⟨batch, response, hbatch, rfl⟩
  · have hkind := kind_of_parse_error hbatch
    refine ⟨⟨hnotes, expected_own entered ?_⟩, ?_⟩
    · rintro _ ⟨⟩
      simp [hkind]
    · show Replied config tokens b r ((origins config).apply (Http.failureResponse e.kind))
      rw [hkind]
      exact .undecoded hadmits hcaller hbatch
  · refine ⟨⟨hnotes, expected_own entered nofun⟩, ?_⟩
    obtain ⟨results, hresults, -⟩ := carried_fine hshort caller batch
    have houtcome : outcome ((Jmap.stages tokens .mailboxMethods).handler r) b = (response, after) :=
      outcome_of_runs hrun
    rw [Jmap.outcome_request hcaller hbatch b, hresults] at houtcome
    obtain ⟨rfl, -⟩ := Prod.mk.inj houtcome
    exact .results hadmits hcaller hbatch hresults

variable (config tokens r) in
/-- **Every request has a reply** of one of these kinds, and nothing unexpected is noted on the way. -/
theorem exists_reply (hshort : ∀ name ∈ Account.defaultMailboxes, name.length ≤ b.store.limit) :
    ∃ response after notes,
      Script.Runs Backend.answer ((apiRoutes config tokens).dispatch r) b response after notes ∧
      (∀ n ∈ notes, n.Expected) ∧ Replied config tokens b r response := by
  have hway := dispatched config tokens r
  generalize (apiRoutes config tokens).dispatch r = script at hway ⊢
  cases hway with
  | handled hadmits =>
    obtain ⟨response, after, notes, hrun, hnotes, hreply⟩ := exists_handled hshort hadmits
    exact ⟨_, after, notes, hrun.map _, hnotes, hreply⟩
  | preflight hmethod => exact ⟨_, b, [], Script.runs_pure _ _, by simp, .preflight hmethod⟩
  | notFound hadmits => exact ⟨_, b, [], Script.runs_pure _ _, by simp, .notFound hadmits⟩
  -- a version that is not known is the one failure of the routes themselves
  | @unsupported version context hversion =>
    have hclient : (Http.Error.unsupportedVersion version).kind ≠ .internal := nofun
    have hnot : ¬ Admits config r := fun h => nomatch hversion.symm.trans h.version
    refine ⟨_, b, _, Script.Runs.bind (Script.runs_log _ _) (Script.runs_pure _ _), ?_, .unsupported hnot⟩
    rw [List.append_nil, List.forall_mem_singleton]
    exact expected_report hclient context

end Requests

/-- What a server answers to a request is its reply. -/
theorem respond_request {server : Server} {s : State} {r : Http.Request} {response : Response}
    {after : Backend} {notes : List Note}
    (h : Script.Runs Backend.answer (server.routes.dispatch r) s.backend response after notes) :
    respond server s (.request r) = (.response response, notes, { s with backend := after }) := by
  have hrun : s.backend.run (server.routes.dispatch r) = (response, after, notes) := h
  rw [respond, hrun]

/-- Nothing unexpected is noted of any event. -/
theorem expected_respond {config : Config} {tokens : Http.Tokens} {s : State}
    (hshort : ∀ name ∈ Account.defaultMailboxes, name.length ≤ s.backend.store.limit) (e : Event) :
    ∀ n ∈ (respond ⟨config, apiRoutes config tokens⟩ s e).2.1, n.Expected := by
  cases e with
  | request r =>
    obtain ⟨response, after, notes, hrun, hnotes, -⟩ := exists_reply config tokens r hshort
    rw [respond_request hrun]
    exact hnotes
  | command user k c =>
    rw [respond]
    exact ((Imap.expected_process c _).run rfl rfl).2.1
  | deliver path => exact fun _ hn => absurd hn List.not_mem_nil

end MailServer.Server
