import MailServer.Proofs.Calls
import MailServer.Proofs.Provision
import MailServer.Proofs.Stages

/-!
# Requests that carry a batch

A request gives its user everything and then carries out the calls of its batch in order. A batch
may be cut anywhere and sent as two requests: the second provisioning finds nothing to do, or fails
as the first one did.

* `dispatch_append`, `dispatched_eraseIdx` — batches of calls on a state.
* `carried` — what a request comes to; `outcome_request` says that the stages of a request come to
  no more and no less.
* `carried_is_sequence` — requests compose, and errors are inert.
-/

namespace MailServer.Jmap

open Account (Provisioned attempt_provision entered provision provisionUser_outcome provision_cases provision_of_provisioned)
open Mailbox (Store)
open Service (Attempt Backend Script)
open Service.Backend

/-! ## Batches -/

section Batches

variable (t : Methods) (caller : Caller)

theorem outcome_dispatch_cons (i : Invocation) (rest : List Invocation) (b : Backend) :
    outcome (t.dispatch caller (i :: rest)) b =
      ((outcome (t.execute i caller) b).1 ::
          (outcome (t.dispatch caller rest) (outcome (t.execute i caller) b).2).1,
        (outcome (t.dispatch caller rest) (outcome (t.execute i caller) b).2).2) := by
  rw [Methods.dispatch, outcome_bind, outcome_bind, outcome_pure]

/-- The calls behind a part of a batch begin where that part ends. Induction on the part. -/
theorem dispatch_append (xs ys : List Invocation) (b : Backend) :
    outcome (t.dispatch caller (xs ++ ys)) b =
      ((outcome (t.dispatch caller xs) b).1 ++
          (outcome (t.dispatch caller ys) (outcome (t.dispatch caller xs) b).2).1,
        (outcome (t.dispatch caller ys) (outcome (t.dispatch caller xs) b).2).2) := by
  induction xs generalizing b with
  | nil => rfl
  | cons i xs ih =>
    rw [List.cons_append, outcome_dispatch_cons, ih, outcome_dispatch_cons]
    rfl

end Batches

section MailboxMethods

variable (caller : Caller) (xs : List Invocation) (b : Backend)

/-- The batch carried out with the mailbox methods. -/
def dispatched : List Result × Backend := outcome (Methods.mailboxMethods.dispatch caller xs) b

/-- The first call of a batch and the others, each with what it does. -/
theorem dispatched_cons_cases (i : Invocation) :
    ∃ r between, outcome (Methods.mailboxMethods.execute i caller) b = (r, between) ∧
      r.callId = i.callId ∧ (r.name = errorName → between = b) ∧
      Store.Keeps b.store between.store ∧ between.registry = b.registry ∧
      dispatched caller (i :: xs) b =
        (r :: (dispatched caller xs between).1, (dispatched caller xs between).2) := by
  obtain ⟨r, between, h, hid, herror, hkeeps, hregistry⟩ := execute_cases i caller b
  refine ⟨r, between, h, hid, herror, hkeeps, hregistry, ?_⟩
  rw [dispatched, outcome_dispatch_cons, h]
  rfl

/-- As many answers as calls, each with the id of its call. -/
theorem dispatched_callIds : (dispatched caller xs b).1.map (·.callId) = xs.map (·.callId) := by
  induction xs generalizing b with
  | nil => rfl
  | cons i xs ih =>
    obtain ⟨r, between, -, hid, -, -, -, h⟩ := dispatched_cons_cases caller xs b i
    rw [h, List.map_cons, ih, hid, List.map_cons]

theorem dispatched_keeps :
    Store.Keeps b.store (dispatched caller xs b).2.store ∧
      (dispatched caller xs b).2.registry = b.registry := by
  induction xs generalizing b with
  | nil => exact ⟨Store.Keeps.refl _, rfl⟩
  | cons i xs ih =>
    obtain ⟨r, between, -, -, -, hkeeps, hregistry, h⟩ := dispatched_cons_cases caller xs b i
    rw [h]
    exact ⟨hkeeps.trans (ih between).1, (ih between).2.trans hregistry⟩

/-- A call that is answered by an error may as well not have been made. Induction on the calls
before it. -/
theorem dispatched_eraseIdx {n : Nat} {r : Result} (hr : (dispatched caller xs b).1[n]? = some r)
    (herror : r.name = errorName) :
    dispatched caller (xs.eraseIdx n) b =
      ((dispatched caller xs b).1.eraseIdx n, (dispatched caller xs b).2) := by
  induction xs generalizing b n with
  | nil => cases hr
  | cons i xs ih =>
    obtain ⟨first, between, hfirst, -, hinert, -, -, h⟩ := dispatched_cons_cases caller xs b i
    rw [h] at hr ⊢
    cases n with
    | zero =>
      rw [List.getElem?_cons_zero, Option.some.injEq] at hr
      subst hr
      rw [hinert herror]
      rfl
    | succ n =>
      rw [List.getElem?_cons_succ] at hr
      have hrest := outcome_dispatch_cons Methods.mailboxMethods caller i (xs.eraseIdx n) b
      rw [hfirst] at hrest
      refine hrest.trans ?_
      have hih := ih between hr
      rw [dispatched] at hih
      rw [hih]
      rfl

end MailboxMethods

/-! ## Requests -/

/-- Gives the caller everything and carries out a batch with the mailbox methods. -/
def carry (caller : Caller) (batch : List Invocation) : Attempt Account.Error (List Result) := do
  provision caller
  (Methods.mailboxMethods.dispatch caller batch : Script _)

/-- What a request of the caller with a batch comes to: the answers, or why there are none, and the
mailboxes and users after it. -/
def carried (caller : Caller) (batch : List Invocation) (b : Backend) :
    Except Account.Error (List Result) × Backend :=
  attempt (carry caller batch) b

/-- The response to what a request came to. -/
def responseTo : Except Account.Error (List Result) → Http.Response
  | .ok results => respond results
  | .error _ => Http.failureResponse .internal

theorem carried_of_provision {caller : Caller} {b between : Backend}
    (h : attempt (provision caller) b = (.ok (), between)) (batch : List Invocation) :
    carried caller batch b =
      (.ok (dispatched caller batch between).1, (dispatched caller batch between).2) := by
  rw [carried, carry, attempt_bind_ok h, attempt_lift]
  rfl

theorem carried_of_provision_error {caller : Caller} {b after : Backend} {e : Account.Error}
    (h : attempt (provision caller) b = (.error e, after)) (batch : List Invocation) :
    carried caller batch b = (.error e, after) :=
  attempt_bind_error h

/-- The sender of a request is looked up among the tokens, which are no part of the state. -/
theorem attempt_authenticate {tokens : Http.Tokens} {r : Http.Request}
    {found : Except Http.CredentialError Caller} (h : tokens.authenticate r = found) (b : Backend) :
    attempt ((stages tokens Methods.mailboxMethods).authenticate r) b = (found, b) := by
  rw [← h]
  rfl

/-- The stages of an authenticated request with a batch come to the response to what it carries. -/
theorem outcome_request {tokens : Http.Tokens} {r : Http.Request} {caller : Caller}
    {batch : List Invocation} (hcaller : tokens.authenticate r = .ok caller)
    (hbatch : Batch.parse r.body = .ok batch) (b : Backend) :
    outcome ((stages tokens Methods.mailboxMethods).handler r) b =
      (responseTo (carried caller batch b).1, (carried caller batch b).2) := by
  have hdecoded : (stages tokens Methods.mailboxMethods).decode r.body = .ok batch := hbatch
  have hentered : attempt ((stages tokens Methods.mailboxMethods).provisionUser caller) b =
      (.ok (), entered caller b) := provisionUser_outcome caller b
  rw [Http.Stages.outcome_handler, Http.Stages.outcome_advance, attempt_authenticate hcaller, hdecoded]
  dsimp only
  rw [Http.Stages.outcome_provision, hentered]
  cases h : attempt (provision caller) b with
  | mk result between =>
    have hgiven : attempt ((stages tokens Methods.mailboxMethods).provisionMailboxes caller)
        (entered caller b) = (result, between) := (attempt_provision caller b).symm.trans h
    dsimp only
    rw [hgiven]
    cases result with
    | error e =>
      rw [carried_of_provision_error h batch]
      rfl
    | ok u =>
      have hhandled : attempt ((stages tokens Methods.mailboxMethods).handle batch caller) between =
          (.ok (respond (dispatched caller batch between).1), (dispatched caller batch between).2) :=
        attempt_bind_ok (attempt_lift _ between)
      dsimp only
      rw [Http.Stages.outcome_execute, hhandled, carried_of_provision h batch]
      rfl

section Refused

variable {tokens : Http.Tokens} {r : Http.Request}

/-- A request whose sender is not known changes nothing. -/
theorem state_of_unauthenticated {e : Http.CredentialError} (h : tokens.authenticate r = .error e)
    (b : Backend) : (outcome ((stages tokens Methods.mailboxMethods).handler r) b).2 = b := by
  rw [Http.Stages.outcome_handler, Http.Stages.outcome_advance, attempt_authenticate h]

/-- Nor does one whose body is no batch. -/
theorem state_of_undecoded {caller : Caller} {e : Http.Error}
    (hcaller : tokens.authenticate r = .ok caller) (h : Batch.parse r.body = .error e) (b : Backend) :
    (outcome ((stages tokens Methods.mailboxMethods).handler r) b).2 = b := by
  have hdecoded : (stages tokens Methods.mailboxMethods).decode r.body = .error e := h
  rw [Http.Stages.outcome_handler, Http.Stages.outcome_advance, attempt_authenticate hcaller, hdecoded]

end Refused

/-! ## Requests one after the other -/

/-- **A batch is a sequence.** A request with `xs ++ ys` answers what a request with `xs` and then
one with `ys` answer, and leaves what they leave. The answers bear the ids of the calls, one for
each. A call answered by an error may be left out of the batch: the other answers and the state
after it stay the same. All this is said of what a request carries, and the last part says that a
request comes to that. -/
theorem carried_is_sequence (caller : Caller) (xs ys : List Invocation) (b : Backend) :
    carried caller (xs ++ ys) b =
      ((do
          let first ← (carried caller xs b).1
          let second ← (carried caller ys (carried caller xs b).2).1
          pure (first ++ second)),
        (carried caller ys (carried caller xs b).2).2) ∧
    (∀ results, (carried caller xs b).1 = .ok results →
      results.map (·.callId) = xs.map (·.callId) ∧
      ∀ n r, results[n]? = some r → r.name = errorName →
        carried caller (xs.eraseIdx n) b = (.ok (results.eraseIdx n), (carried caller xs b).2)) ∧
    ∀ (tokens : Http.Tokens) (r : Http.Request), tokens.authenticate r = .ok caller →
      Batch.parse r.body = .ok xs →
      outcome ((stages tokens Methods.mailboxMethods).handler r) b =
        (responseTo (carried caller xs b).1, (carried caller xs b).2) := by
  refine ⟨?_, ?_, fun tokens r hcaller hbatch => outcome_request hcaller hbatch b⟩
  -- provisioning has settled before `xs`, so before `ys` it does nothing or fails as before
  · obtain ⟨between, h, hprovisioned⟩ | ⟨e, after, h, hagain⟩ := provision_cases caller b
    · have hstill : Provisioned caller (dispatched caller xs between).2 :=
        hprovisioned.keeps (dispatched_keeps caller xs between).1 (dispatched_keeps caller xs between).2
      rw [carried_of_provision h, carried_of_provision h,
        carried_of_provision (provision_of_provisioned hstill)]
      have happend := dispatch_append Methods.mailboxMethods caller xs ys between
      rw [dispatched, happend]
      rfl
    · rw [carried_of_provision_error h, carried_of_provision_error h,
        carried_of_provision_error hagain]
      rfl
  · intro results hresults
    obtain ⟨between, h, -⟩ | ⟨e, after, h, -⟩ := provision_cases caller b
    · rw [carried_of_provision h] at hresults ⊢
      cases hresults
      refine ⟨dispatched_callIds caller xs between, ?_⟩
      intro n r hr herror
      rw [carried_of_provision h, dispatched_eraseIdx caller xs between hr herror]
    · rw [carried_of_provision_error h] at hresults
      cases hresults

/-- A call of an unknown method may be left out, and an empty batch is a request. -/
theorem carried_is_sequence_unknown_method :
    (∃ results, (carried ⟨"ann", '.'⟩ [⟨"unknown", .object [], "c0"⟩] (.empty 255 '.')).1 = .ok results ∧
      (∃ r, results[0]? = some r ∧ r.name = errorName) ∧
      carried ⟨"ann", '.'⟩ [] (.empty 255 '.') =
        (.ok (results.eraseIdx 0),
          (carried ⟨"ann", '.'⟩ [⟨"unknown", .object [], "c0"⟩] (.empty 255 '.')).2)) ∧
    outcome ((stages ((Http.Tokens.empty '.').register "token" "ann") Methods.mailboxMethods).handler
        ⟨.post, "/jmap", Http.Headers.empty.insert "Authorization" "Bearer token", [0x5B, 0x5D]⟩)
        (.empty 255 '.') =
      (responseTo (carried ⟨"ann", '.'⟩ [] (.empty 255 '.')).1,
        (carried ⟨"ann", '.'⟩ [] (.empty 255 '.')).2) :=
  ⟨⟨_, rfl, ⟨_, rfl, rfl⟩,
      ((carried_is_sequence ⟨"ann", '.'⟩ [⟨"unknown", .object [], "c0"⟩] [] (.empty 255 '.')).2.1 _
        rfl).2 0 _ rfl rfl⟩,
    (carried_is_sequence ⟨"ann", '.'⟩ [] [] (.empty 255 '.')).2.2 _ _ (by decide +kernel) rfl⟩

end MailServer.Jmap
