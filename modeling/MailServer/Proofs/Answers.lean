import MailServer.Proofs.Reports
import MailServer.Proofs.Results

/-!
# Answers are batches

An answer with 200 is the text of the results of a batch, which are read back. Its triples have the call ids
of the batch in the same order, whoever answers the calls that the methods make.

* `results_dispatch` — an answer with 200 has the results of the batch of its request.
* `answers_are_batches` — answers are read back as batches.
-/

namespace MailServer.Http.Stages

open Service (Attempt Call Note Script)

variable {σ : Type} {answer : (c : Call) → σ → c.Reply × σ} {s after : σ} {notes : List Note}

/-- A request comes to the results of its batch, which are readable, or to an error. -/
theorem Course.answered {tokens : Tokens} {r : Request} {entered : List State}
    {result : Except Error Response}
    (h : Course (Jmap.stages tokens .mailboxMethods) answer r s entered result after notes) :
    (∃ batch results, Jmap.Batch.parse r.body = .ok batch ∧ result = .ok (Jmap.respond results) ∧
      (∀ x ∈ results, x.Readable) ∧ results.map (·.callId) = batch.map (·.callId)) ∨
    ∃ e, result = .error e := by
  cases h with
  | @handled caller batch _ _ _ s₃ _ _ _ _ _ hauthenticate hdecode huser hmailboxes hhandle =>
    obtain ⟨results, s₅, n₅, hdispatch⟩ :=
      Script.runs_total answer (Jmap.Methods.mailboxMethods.dispatch caller batch) s₃
    have hanswered : Attempt.Runs answer ((Jmap.stages tokens .mailboxMethods).handle batch caller) s₃
        (.ok (Jmap.respond results)) s₅ (n₅ ++ []) :=
      Attempt.Runs.bind (x := liftM (Jmap.Methods.mailboxMethods.dispatch caller batch))
        (hdispatch.map Except.ok) (Attempt.runs_pure _ _)
    obtain ⟨rfl, -, -⟩ := Script.Runs.unique hanswered hhandle
    exact Or.inl ⟨batch, results, hdecode, rfl, Jmap.readable_dispatch hdispatch⟩
  | _ => exact Or.inr ⟨_, rfl⟩

end MailServer.Http.Stages

namespace MailServer.Server

open Jmap (Result)
open Json (Value)
open Service (Call Script)

/-- An answer with 200, other than to a request sent ahead, has the results of the batch of its request. -/
theorem results_dispatch {σ : Type} {config : Config} {tokens : Http.Tokens} {r : Http.Request}
    {answer : (c : Call) → σ → c.Reply × σ} {s : σ} (hmethod : r.method ≠ .options)
    (hstatus : (((apiRoutes config tokens).dispatch r).run answer s).1.status = 200) :
    ∃ batch results, Jmap.Batch.parse r.body = .ok batch ∧
      (((apiRoutes config tokens).dispatch r).run answer s).1.body = Result.renderAll results ∧
      (∀ x ∈ results, x.Readable) ∧ results.map (·.callId) = batch.map (·.callId) := by
  have hway := dispatched config tokens r
  generalize (apiRoutes config tokens).dispatch r = script at hway hstatus ⊢
  cases hway with
  | handled hadmits =>
    obtain ⟨entered, result, after, notes, hcourse⟩ :=
      Http.Stages.exists_course (Jmap.stages tokens .mailboxMethods) answer r s
    have hrun : Script.run answer _ s = _ :=
      (Script.Runs.map hcourse.runs_process (·.1)).map (origins config).apply
    rw [Http.Stages.handler, hrun] at hstatus ⊢
    -- an error is answered with the status of its kind, which is never 200
    rcases hcourse.answered with ⟨batch, results, hbatch, rfl, hresults⟩ | ⟨e, rfl⟩
    · exact ⟨batch, results, hbatch, rfl, hresults⟩
    · have hfailed : (Http.failureResponse e.kind).status = 200 := hstatus
      rw [Http.status_failureResponse] at hfailed
      cases hkind : e.kind <;> rw [hkind] at hfailed <;> cases hfailed
  | preflight hoptions => exact absurd hoptions hmethod
  | notFound hadmits => cases hstatus
  | unsupported context hversion =>
    have hfailed : (Http.failureResponse _).status = 200 := hstatus
    rw [Http.status_failureResponse] at hfailed
    generalize (Http.transportRules.resolve _ context).action = kind at hfailed
    cases kind <;> cases hfailed

/-- **Answers are batches.** The text of any results whose values are objects without doubles, nested at
most 125 containers deep, is read as the batch of the same names, objects and call ids in the same order.
So is every answer with 200 to a request for the methods, whoever answers the calls that it makes: it has
as many triples as the batch of the request has calls, and their call ids. -/
theorem answers_are_batches :
    (∀ results : List Result, (∀ r ∈ results, r.value.isObject = true ∧ Value.Plain 125 r.value) →
      Jmap.Batch.parse (Text.utf8 (Result.renderAll results)) =
        .ok (results.map fun r => ⟨r.name, r.value, r.callId⟩)) ∧
    ∀ (config : Config) (tokens : Http.Tokens) (σ : Type) (answer : (c : Call) → σ → c.Reply × σ) (s : σ)
        (r : Http.Request),
      let response := (((apiRoutes config tokens).dispatch r).run answer s).1
      r.method ≠ .options → response.status = 200 →
      ∃ batch sent, Jmap.Batch.parse r.body = .ok batch ∧ Jmap.Batch.parse (Text.utf8 response.body) = .ok sent ∧
        sent.map (·.callId) = batch.map (·.callId) ∧ sent.length = batch.length := by
  refine ⟨fun results h => Jmap.parse_renderAll fun r hr => ⟨(h r hr).1, (h r hr).2⟩, ?_⟩
  intro config tokens σ answer s r response hmethod hstatus
  obtain ⟨batch, results, hbatch, hbody, hreadable, hids⟩ := results_dispatch hmethod hstatus
  refine ⟨batch, results.map Result.asInvocation, hbatch, ?_, ?_, ?_⟩
  · exact (congrArg (Jmap.Batch.parse <| Text.utf8 ·) hbody).trans (Jmap.parse_renderAll hreadable)
  · rw [List.map_map]
    exact hids
  · rw [List.length_map]
    simpa using congrArg List.length hids

/-- A result whose value has a line feed and a quote in it, and the answer to a call of a method that there
is not. -/
theorem answers_are_batches_unknown_method :
    let value : Value := .object [("\n", .array [.number (.natural 7), .string "\""])]
    let config := Config.standard
    let tokens := (Http.Tokens.empty config.delimiter).register "token" "ann"
    -- the body is [["f",{},"c"]]
    let r : Http.Request := ⟨.post, "/jmap", Http.Headers.empty.insert "Authorization" "Bearer token",
      [0x5B, 0x5B, 0x22, 0x66, 0x22, 0x2C, 0x7B, 0x7D, 0x2C, 0x22, 0x63, 0x22, 0x5D, 0x5D]⟩
    let response := (((apiRoutes config tokens).dispatch r).run Service.Backend.answer (.empty 255 '.')).1
    (value.isObject = true ∧ Value.Plain 125 value) ∧
    Jmap.Batch.parse (Text.utf8 (Result.renderAll [⟨"f", value, "c"⟩])) = .ok [⟨"f", value, "c"⟩] ∧
    (r.method ≠ .options ∧ response.status = 200) ∧
    ∃ batch sent, Jmap.Batch.parse r.body = .ok batch ∧
      Jmap.Batch.parse (Text.utf8 response.body) = .ok sent ∧
      sent.map (·.callId) = batch.map (·.callId) ∧ sent.length = batch.length := by
  intro value config tokens r response
  have hitems : ∀ v ∈ [Value.number (.natural 7), .string "\""], Value.Plain 123 v :=
    List.forall_mem_cons.mpr ⟨.natural _ _, List.forall_mem_singleton.mpr (.string _ _)⟩
  have hvalue : value.isObject = true ∧ Value.Plain 125 value :=
    ⟨rfl, .object (List.pairwise_singleton _ _) (List.forall_mem_singleton.mpr (.array hitems))⟩
  have hstatus : response.status = 200 := by decide +kernel
  refine ⟨hvalue, ?_, ⟨by decide, hstatus⟩, ?_⟩
  · exact answers_are_batches.1 [⟨"f", value, "c"⟩] (List.forall_mem_singleton.mpr hvalue)
  · exact answers_are_batches.2 config tokens _ Service.Backend.answer (.empty 255 '.') r (by decide) hstatus

end MailServer.Server
