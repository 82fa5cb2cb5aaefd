import MailServer.Jmap.Dispatch
import MailServer.Proofs.Run
import MailServer.Service.Script

/-!
# The course of a request

The stages of a request are up to whoever puts them together: each may make calls, leave notes and
fail. What is fixed is which of them are asked, and what the request makes of their answers.

* `Stages.Course` — how far a request gets: the states it enters, what it comes to, and what the
  stages that were asked have left. One case for every way out.
* `exists_course` — every request has a course.
* `Course.runs_advance` — the stages of a request run along its course.
* `process_follows_course` — the history, the response, the timer and the log of a request.
-/

namespace MailServer.Http

open Service (Attempt Call Note Script)

variable {β σ : Type}

/-! ## Steps of the history -/

/-- A step that is one is taken, and nothing is said about it. -/
theorem Trace.step_of_canAdvance {t : Trace} {next : State}
    (h : t.current.canAdvance next = true) : t.step next = pure ⟨next :: t.later⟩ := by
  rw [step, advance, if_pos h]

/-- A request that fails goes on to the response, unless it has failed or is over. -/
theorem Trace.stepFail_of_canAdvance {t : Trace} {kind : Failure}
    (h : t.current.canAdvance (.failed kind) = true) :
    t.stepFail kind = pure ⟨.responding :: .failed kind :: t.later⟩ := by
  have hfailed : t.advance (.failed kind) = (⟨.failed kind :: t.later⟩, none) := by
    rw [advance, if_pos h]
  rw [stepFail, fail, hfailed]
  rfl

/-- The action that an error is answered by is its kind. -/
theorem resolve_action (e : Error) (context : Log.Context) :
    (transportRules.resolve e context).action = e.kind := by
  cases e <;> rfl

/-- An error is reported by the classifier, which is never about the states of the request. -/
theorem resolve_source (e : Error) (context : Log.Context) :
    (transportRules.resolve e context).event.source = .classify := by
  cases e <;> rfl

namespace Stages

/-! ## Courses -/

section Course

variable (stages : Stages β) (answer : (c : Call) → σ → c.Reply × σ) (r : Request) (s : σ)

/-- How a request goes from `s`: the states it enters after it has been received and before it is
answered, what it comes to, and the state and the notes that the stages leave. A stage is asked only
where all before it have succeeded. -/
inductive Course : List State → Except Error Response → σ → List Note → Prop
  | unauthenticated {e : CredentialError} {s₁ : σ} {n₁ : List Note}
      (hauthenticate : Attempt.Runs answer (stages.authenticate r) s (.error e) s₁ n₁) :
      Course [.authenticating] (.error (.unauthorized e)) s₁ n₁
  | undecoded {caller : Caller} {e : Error} {s₁ : σ} {n₁ : List Note}
      (hauthenticate : Attempt.Runs answer (stages.authenticate r) s (.ok caller) s₁ n₁)
      (hdecode : stages.decode r.body = .error e) :
      Course [.authenticating, .decoding] (.error e) s₁ n₁
  | userRefused {caller : Caller} {input : β} {e : Account.Error} {s₁ s₂ : σ} {n₁ n₂ : List Note}
      (hauthenticate : Attempt.Runs answer (stages.authenticate r) s (.ok caller) s₁ n₁)
      (hdecode : stages.decode r.body = .ok input)
      (huser : Attempt.Runs answer (stages.provisionUser caller) s₁ (.error e) s₂ n₂) :
      Course [.authenticating, .decoding, .provisioning] (.error (.provisioning e)) s₂ (n₁ ++ n₂)
  | mailboxesRefused {caller : Caller} {input : β} {e : Account.Error} {s₁ s₂ s₃ : σ}
      {n₁ n₂ n₃ : List Note}
      (hauthenticate : Attempt.Runs answer (stages.authenticate r) s (.ok caller) s₁ n₁)
      (hdecode : stages.decode r.body = .ok input)
      (huser : Attempt.Runs answer (stages.provisionUser caller) s₁ (.ok ()) s₂ n₂)
      (hmailboxes : Attempt.Runs answer (stages.provisionMailboxes caller) s₂ (.error e) s₃ n₃) :
      Course [.authenticating, .decoding, .provisioning] (.error (.provisioning e)) s₃
        (n₁ ++ n₂ ++ n₃)
  | handled {caller : Caller} {input : β} {result : Except Error Response} {s₁ s₂ s₃ s₄ : σ}
      {n₁ n₂ n₃ n₄ : List Note}
      (hauthenticate : Attempt.Runs answer (stages.authenticate r) s (.ok caller) s₁ n₁)
      (hdecode : stages.decode r.body = .ok input)
      (huser : Attempt.Runs answer (stages.provisionUser caller) s₁ (.ok ()) s₂ n₂)
      (hmailboxes : Attempt.Runs answer (stages.provisionMailboxes caller) s₂ (.ok ()) s₃ n₃)
      (hhandle : Attempt.Runs answer (stages.handle input caller) s₃ result s₄ n₄) :
      Course [.authenticating, .decoding, .provisioning, .executing] result s₄
        (n₁ ++ n₂ ++ n₃ ++ n₄)

/-- Every request has a course: the stages are asked one after the other, up to the first that
fails. -/
theorem exists_course : ∃ entered result after notes,
    Course stages answer r s entered result after notes := by
  obtain ⟨authenticated, s₁, n₁, hauthenticate⟩ :=
    Attempt.runs_total answer (stages.authenticate r) s
  cases authenticated with
  | error e => exact ⟨_, _, _, _, .unauthenticated hauthenticate⟩
  | ok caller =>
    cases hdecode : stages.decode r.body with
    | error e => exact ⟨_, _, _, _, .undecoded hauthenticate hdecode⟩
    | ok input =>
      obtain ⟨entered, s₂, n₂, huser⟩ := Attempt.runs_total answer (stages.provisionUser caller) s₁
      cases entered with
      | error e => exact ⟨_, _, _, _, .userRefused hauthenticate hdecode huser⟩
      | ok u =>
        obtain ⟨given, s₃, n₃, hmailboxes⟩ :=
          Attempt.runs_total answer (stages.provisionMailboxes caller) s₂
        cases given with
        | error e => exact ⟨_, _, _, _, .mailboxesRefused hauthenticate hdecode huser hmailboxes⟩
        | ok u =>
          obtain ⟨result, s₄, n₄, hhandle⟩ :=
            Attempt.runs_total answer (stages.handle input caller) s₃
          exact ⟨_, _, _, _, .handled hauthenticate hdecode huser hmailboxes hhandle⟩

variable {stages answer r s}

/-- The states entered are an initial part of the four. -/
theorem Course.entered_prefix {entered : List State} {result : Except Error Response} {after : σ}
    {notes : List Note} (h : Course stages answer r s entered result after notes) :
    entered <+: [.authenticating, .decoding, .provisioning, .executing] := by
  cases h <;> decide

end Course

/-! ## What the request makes of its course -/

section Process

/-- The note of the duration, for a request that has come to its handler. -/
def timing (stages : Stages β) (entered : List State) : List Note :=
  if .executing ∈ entered then [.timed stages.timer] else []

/-- The note of the failure, for a request that has failed. -/
def report (r : Request) : Except Error Response → List Note
  | .ok _ => []
  | .error e => [.logged (transportRules.resolve e (.ofList [("path", r.path)])).event]

/-- The states of a request behind its stages. -/
def ending : Except Error Response → List State
  | .ok _ => [.responding, .completed]
  | .error e => [.failed e.kind, .responding, .completed]

/-- The response to a request: its handler's, or the one to the kind of failure. -/
def responseOf : Except Error Response → Response
  | .ok response => response
  | .error e => failureResponse e.kind

variable {stages : Stages β} {answer : (c : Call) → σ → c.Reply × σ} {r : Request} {s : σ}

/-- The duration of the handler is taken behind it, whether it succeeds or not. -/
theorem runs_execute {input : β} {caller : Caller} {t : Trace} {result : Except Error Response}
    {after : σ} {notes : List Note} (ht : t.current.canAdvance .executing = true)
    (h : Attempt.Runs answer (stages.handle input caller) s result after notes) :
    Script.Runs answer (stages.execute input caller t) s (result, ⟨.executing :: t.later⟩) after
      (notes ++ [.timed stages.timer]) := by
  unfold execute
  rw [Trace.step_of_canAdvance ht, pure_bind]
  refine Script.Runs.bind h ?_
  cases result <;> rfl

/-- A request that has been decoded goes on with provisioning. -/
theorem runs_advance_decoded {caller : Caller} {input : β} {s₁ after : σ} {n₁ notes : List Note}
    {outcome : Except Error Response × Trace}
    (hauthenticate : Attempt.Runs answer (stages.authenticate r) s (.ok caller) s₁ n₁)
    (hdecode : stages.decode r.body = .ok input)
    (h : Script.Runs answer (stages.provision input caller ⟨[.decoding, .authenticating]⟩) s₁ outcome
      after notes) :
    Script.Runs answer (stages.advance r .start) s outcome after (n₁ ++ notes) := by
  unfold advance
  rw [Trace.step_of_canAdvance (by rfl), pure_bind]
  refine Script.Runs.bind hauthenticate ?_
  dsimp only
  rw [Trace.step_of_canAdvance (by rfl), pure_bind, hdecode]
  exact h

/-- The stages run along the course, and the history has the states entered. -/
theorem Course.runs_advance {entered : List State} {result : Except Error Response} {after : σ}
    {notes : List Note} (h : Course stages answer r s entered result after notes) :
    Script.Runs answer (stages.advance r .start) s (result, ⟨entered.reverse⟩) after
      (notes ++ timing stages entered) := by
  cases h with
  | unauthenticated hauthenticate =>
    unfold advance
    rw [Trace.step_of_canAdvance (by rfl), pure_bind]
    exact Script.Runs.bind hauthenticate (Script.runs_pure _ _)
  | undecoded hauthenticate hdecode =>
    unfold advance
    rw [Trace.step_of_canAdvance (by rfl), pure_bind]
    refine Script.Runs.bind hauthenticate ?_
    dsimp only
    rw [Trace.step_of_canAdvance (by rfl), pure_bind, hdecode]
    exact Script.runs_pure _ _
  | userRefused hauthenticate hdecode huser =>
    rw [List.append_assoc]
    refine runs_advance_decoded hauthenticate hdecode ?_
    unfold provision
    rw [Trace.step_of_canAdvance (by rfl), pure_bind]
    exact Script.Runs.bind huser (Script.runs_pure _ _)
  | mailboxesRefused hauthenticate hdecode huser hmailboxes =>
    rw [List.append_assoc, List.append_assoc]
    refine runs_advance_decoded hauthenticate hdecode ?_
    unfold provision
    rw [Trace.step_of_canAdvance (by rfl), pure_bind]
    refine Script.Runs.bind huser ?_
    exact Script.Runs.bind hmailboxes (Script.runs_pure _ _)
  | handled hauthenticate hdecode huser hmailboxes hhandle =>
    rw [List.append_assoc, List.append_assoc, List.append_assoc]
    refine runs_advance_decoded hauthenticate hdecode ?_
    unfold provision
    rw [Trace.step_of_canAdvance (by rfl), pure_bind]
    refine Script.Runs.bind huser ?_
    refine Script.Runs.bind hmailboxes ?_
    exact runs_execute (by rfl) hhandle

/-- The state that a request is in when its stages are through can fail, and it can be answered
where the handler has been entered. -/
theorem Course.canAdvance {entered : List State} {result : Except Error Response} {after : σ}
    {notes : List Note} (h : Course stages answer r s entered result after notes) :
    (∀ kind, (Trace.mk entered.reverse).current.canAdvance (.failed kind) = true) ∧
    (result.isOk = true → (Trace.mk entered.reverse).current.canAdvance .responding = true) := by
  cases h with
  | handled => exact ⟨fun _ => rfl, fun _ => rfl⟩
  | _ => exact ⟨fun _ => rfl, fun hok => nomatch hok⟩

/-- The whole run of a request along its course. -/
theorem Course.runs_process {entered : List State} {result : Except Error Response} {after : σ}
    {notes : List Note} (h : Course stages answer r s entered result after notes) :
    Script.Runs answer (stages.process r) s (responseOf result, ⟨(entered ++ ending result).reverse⟩)
      after (notes ++ timing stages entered ++ report r result) := by
  obtain ⟨hfails, hresponds⟩ := h.canAdvance
  unfold process
  refine Script.Runs.bind h.runs_advance ?_
  rw [List.reverse_append]
  cases result with
  | ok response =>
    dsimp only
    rw [Trace.step_of_canAdvance (hresponds rfl), pure_bind, Trace.step_of_canAdvance (by rfl),
      pure_bind]
    exact Script.runs_pure _ _
  | error e =>
    dsimp only
    rw [resolve_action]
    refine Script.Runs.bind (Script.runs_log _ _) ?_
    rw [Trace.stepFail_of_canAdvance (hfails e.kind), pure_bind, Trace.step_of_canAdvance (by rfl),
      pure_bind]
    exact Script.runs_pure _ _

/-- Stages that have not been asked may be others. -/
theorem Course.of_unasked {entered : List State} {result : Except Error Response} {after : σ}
    {notes : List Note} (h : Course stages answer r s entered result after notes) {others : Stages β}
    (hauthenticate : others.authenticate = stages.authenticate)
    (hdecode : .decoding ∈ entered → others.decode = stages.decode)
    (hprovision : .provisioning ∈ entered → others.provisionUser = stages.provisionUser ∧
      others.provisionMailboxes = stages.provisionMailboxes)
    (hhandle : .executing ∈ entered → others.handle = stages.handle) :
    Course others answer r s entered result after notes := by
  cases h with
  | unauthenticated hasked => exact .unauthenticated (hauthenticate ▸ hasked)
  | undecoded hasked hread => exact .undecoded (hauthenticate ▸ hasked) (hdecode (by simp) ▸ hread)
  | userRefused hasked hread huser =>
    obtain ⟨husers, -⟩ := hprovision (by simp)
    exact .userRefused (hauthenticate ▸ hasked) (hdecode (by simp) ▸ hread) (husers ▸ huser)
  | mailboxesRefused hasked hread huser hmailboxes =>
    obtain ⟨husers, hgiven⟩ := hprovision (by simp)
    exact .mailboxesRefused (hauthenticate ▸ hasked) (hdecode (by simp) ▸ hread) (husers ▸ huser)
      (hgiven ▸ hmailboxes)
  | handled hasked hread huser hmailboxes hdone =>
    obtain ⟨husers, hgiven⟩ := hprovision (by simp)
    exact .handled (hauthenticate ▸ hasked) (hdecode (by simp) ▸ hread) (husers ▸ huser)
      (hgiven ▸ hmailboxes) (hhandle (by simp) ▸ hdone)

/-- What the request itself logs is never about a step that is none. -/
theorem refusal_not_mem_own (entered : List State) (result : Except Error Response)
    (current next : State) :
    .logged (Trace.refusal current next) ∉ timing stages entered ++ report r result := by
  rw [List.mem_append, not_or]
  refine ⟨?_, ?_⟩
  · unfold timing
    split <;> simp
  · cases result with
    | ok response => exact List.not_mem_nil
    | error e =>
      intro h
      have hevent := Note.logged.inj (List.mem_singleton.mp h)
      have hsource : Log.Source.request = .classify :=
        (congrArg Log.Event.source hevent).trans (resolve_source e _)
      cases hsource

end Process

/-- A request with a batch whose sender is not known, or whose body is none, changes nothing. -/
theorem refused_leaves_state {tokens : Tokens} {methods : Jmap.Methods} {r : Request}
    (answer : (c : Call) → σ → c.Reply × σ) (s : σ)
    (h : (∃ e, tokens.authenticate r = .error e) ∨ ∃ e, Jmap.Batch.parse r.body = .error e) :
    (((Jmap.stages tokens methods).process r).run answer s).2.1 = s := by
  obtain ⟨entered, result, after, notes, hcourse⟩ :=
    exists_course (Jmap.stages tokens methods) answer r s
  rw [hcourse.runs_process]
  -- looking a token up is no call, so it leaves the state as it is
  have hlookup : ∀ {found : Except CredentialError Caller} {s₁ : σ} {n₁ : List Note},
      Attempt.Runs answer ((Jmap.stages tokens methods).authenticate r) s found s₁ n₁ →
        found = tokens.authenticate r ∧ s₁ = s := by
    intro found s₁ n₁ hasked
    obtain ⟨hfound, hs, -⟩ := Script.Runs.unique hasked (Attempt.runs_liftExcept _ s)
    exact ⟨hfound, hs⟩
  have hrefused : ∀ {caller : Caller} {batch : List Jmap.Invocation} {s₁ : σ} {n₁ : List Note},
      Attempt.Runs answer ((Jmap.stages tokens methods).authenticate r) s (.ok caller) s₁ n₁ →
        (Jmap.stages tokens methods).decode r.body = .ok batch → after = s := by
    intro caller batch s₁ n₁ hasked hread
    rcases h with ⟨e, he⟩ | ⟨e, he⟩
    · cases (hlookup hasked).1.trans he
    · cases Eq.trans (Eq.symm hread) he
  cases hcourse with
  | unauthenticated hasked => exact (hlookup hasked).2
  | undecoded hasked hread => exact (hlookup hasked).2
  | userRefused hasked hread huser => exact hrefused hasked hread
  | mailboxesRefused hasked hread huser hmailboxes => exact hrefused hasked hread
  | handled hasked hread huser hmailboxes hdone => exact hrefused hasked hread

/-! ## Every request -/

/-- **A request goes through its stages**, whatever these do and whoever answers their calls. A stage
is asked only where all before it have succeeded; a stage that was not asked may as well be another.
The history is that of the stages entered, with the failure behind it if there was one, and no step of
it is refused. A failure is answered by its kind alone, and logged once; else the handler answers. The
duration is recorded once where the handler was asked, and never else. A request with a batch whose
sender is not known, or whose body is none, changes nothing. -/
theorem process_follows_course (stages : Stages β) (answer : (c : Call) → σ → c.Reply × σ)
    (r : Request) (s : σ) :
    (∃ entered result after notes, Course stages answer r s entered result after notes ∧
      entered <+: [.authenticating, .decoding, .provisioning, .executing] ∧
      (∃ trace : Trace, trace.history = .received :: entered ++ ending result ∧
        (stages.process r).run answer s =
          ((responseOf result, trace), after, notes ++ timing stages entered ++ report r result)) ∧
      (∀ current next,
        .logged (Trace.refusal current next) ∉ timing stages entered ++ report r result) ∧
      ∀ others : Stages β, others.authenticate = stages.authenticate → others.timer = stages.timer →
        (.decoding ∈ entered → others.decode = stages.decode) →
        (.provisioning ∈ entered → others.provisionUser = stages.provisionUser ∧
          others.provisionMailboxes = stages.provisionMailboxes) →
        (.executing ∈ entered → others.handle = stages.handle) →
        (others.process r).run answer s = (stages.process r).run answer s) ∧
    ∀ (tokens : Tokens) (methods : Jmap.Methods),
      ((∃ e, tokens.authenticate r = .error e) ∨ ∃ e, Jmap.Batch.parse r.body = .error e) →
      (((Jmap.stages tokens methods).process r).run answer s).2.1 = s := by
  refine ⟨?_, fun tokens methods h => refused_leaves_state answer s h⟩
  obtain ⟨entered, result, after, notes, hcourse⟩ := exists_course stages answer r s
  have hrun := hcourse.runs_process
  refine ⟨entered, result, after, notes, hcourse, hcourse.entered_prefix, ⟨_, ?_, hrun⟩,
    refusal_not_mem_own entered result, ?_⟩
  · rw [Trace.history, List.reverse_reverse]
    rfl
  · intro others hauthenticate htimer hdecode hprovision hhandle
    have hothers := (hcourse.of_unasked hauthenticate hdecode hprovision hhandle).runs_process
    have htiming : timing others entered = timing stages entered := by
      rw [timing, timing, htimer]
    rw [htiming] at hothers
    exact Eq.trans hothers (Eq.symm hrun)

/-- A known user sends a body that ends too soon: the request is answered before its handler is
asked, so that any other handler would do, and the server stays as it is. -/
theorem process_follows_course_undecoded :
    let tokens := (Tokens.empty '.').register "token" "ann"
    let r : Request :=
      ⟨.post, "/jmap", Headers.empty.insert "Authorization" "Bearer token", [0x5B]⟩
    let stages := Jmap.stages tokens .mailboxMethods
    let b := Service.Backend.empty 255 '.'
    (∃ e, Jmap.Batch.parse r.body = .error e) ∧
    (b.run (stages.process r)).1.2.history =
      [.received, .authenticating, .decoding, .failed .badRequest, .responding, .completed] ∧
    b.run (({ stages with handle := fun _ _ => throw (.internal "not asked") } :
      Stages (List Jmap.Invocation)).process r) = b.run (stages.process r) ∧
    (b.run (stages.process r)).2.1 = b := by
  intro tokens r stages b
  have hbody : ∃ e, Jmap.Batch.parse r.body = .error e := ⟨_, rfl⟩
  obtain ⟨⟨entered, result, after, notes, hcourse, -, -, -, hunasked⟩, hrefused⟩ :=
    process_follows_course stages Service.Backend.answer r b
  have hnot : .executing ∉ entered := by
    cases hcourse with
    | handled hasked hread huser hmailboxes hdone => cases hread
    | _ => simp
  exact ⟨hbody, by decide +kernel,
    hunasked _ rfl rfl (fun _ => rfl) (fun _ => ⟨rfl, rfl⟩) (fun h => absurd h hnot),
    hrefused tokens .mailboxMethods (Or.inr hbody)⟩

end Stages

end MailServer.Http
