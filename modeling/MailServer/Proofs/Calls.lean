import MailServer.Jmap.Dispatch
import MailServer.Proofs.Script
import MailServer.Proofs.Store

/-!
# Calls on the store

What the mailbox methods do where the store in memory answers. A listing changes nothing. A call
that creates mailboxes reads all of its arguments before it creates the first one, and a creation
that cannot be done is an outcome and no error; so an error is always the answer to a call that
changed nothing.

* `attempt_create`, `attempt_createAll` — creations as creations in the store.
* `process_getMailboxes`, `process_setMailboxes` — the two methods.
* `execute_cases` — everything that carrying out a call can do.
-/

namespace MailServer.Jmap

open Json (Value)
open Mailbox (Listing Store)
open Service (Backend)
open Service.Backend

/-! ## Creations -/

/-- The outcome of a creation whose path the store was asked to create. -/
def Outcome.ofReply : Except Mailbox.Error Mailbox.Id → Outcome
  | .ok id => .created id
  | .error (.alreadyExists path) => .notCreated "mailboxExists" (Mailbox.Error.alreadyExists path).message
  | .error cause => .invalid cause.message

/-- What becomes of a creation in a store. -/
def outcomeIn (caller : Caller) (existing : List Listing) (c : Creation) (s : Store) :
    Outcome × Store :=
  match creationPath caller existing c with
  | .error description => (.invalid description, s)
  | .ok path => (.ofReply (s.create path).1, (s.create path).2)

/-- What becomes of creations one after the other. -/
def outcomesIn (caller : Caller) (existing : List Listing) :
    List (String × Creation) → Store → List (String × Outcome) × Store
  | [], s => ([], s)
  | (id, c) :: rest, s =>
    let (o, s) := outcomeIn caller existing c s
    let (os, s) := outcomesIn caller existing rest s
    ((id, o) :: os, s)

section Creations

variable (caller : Caller) (existing : List Listing) (b : Backend)

/-- A creation does not fail on the store in memory, which refuses with two causes only. -/
theorem attempt_create (c : Creation) :
    attempt (create caller existing c) b =
      (.ok (outcomeIn caller existing c b.store).1,
        { b with store := (outcomeIn caller existing c b.store).2 }) := by
  unfold create outcomeIn
  cases creationPath caller existing c with
  | error description => rfl
  | ok path =>
    dsimp only
    rw [attempt_bind_ok (attempt_ask (.createMailbox path) b)]
    dsimp only [Backend.answer]
    rcases Store.create_cases b.store path with ⟨-, h⟩ | ⟨-, -, h⟩ | ⟨-, -, h⟩ <;> rw [h] <;> rfl

theorem attempt_createAll (creations : List (String × Creation)) :
    attempt (createAll caller existing creations) b =
      (.ok (outcomesIn caller existing creations b.store).1,
        { b with store := (outcomesIn caller existing creations b.store).2 }) := by
  induction creations generalizing b with
  | nil => rfl
  | cons c creations ih =>
    obtain ⟨id, c⟩ := c
    rw [createAll, attempt_bind_ok (attempt_create caller existing b c), attempt_bind_ok (ih _)]
    rfl

end Creations

theorem keeps_outcomeIn (caller : Caller) (existing : List Listing) (c : Creation) (s : Store) :
    Store.Keeps s (outcomeIn caller existing c s).2 := by
  unfold outcomeIn
  split
  · exact Store.Keeps.refl s
  · exact Store.keeps_create s _

theorem keeps_outcomesIn (caller : Caller) (existing : List Listing)
    (creations : List (String × Creation)) (s : Store) :
    Store.Keeps s (outcomesIn caller existing creations s).2 := by
  induction creations generalizing s with
  | nil => exact Store.Keeps.refl s
  | cons c creations ih =>
    obtain ⟨id, c⟩ := c
    exact (keeps_outcomeIn caller existing c s).trans (ih _)

/-! ## Methods -/

section Methods

variable (v : Value) (caller : Caller) (b : Backend)

/-- The mailboxes among which the parents of creations are looked for in a store. -/
def parentsIn (caller : Caller) (creations : List (String × Creation)) (s : Store) : List Listing :=
  if creations.any (·.2.parentId.isSome) then s.list caller.user else []

theorem attempt_parentsOf (creations : List (String × Creation)) :
    attempt (parentsOf caller creations) b = (.ok (parentsIn caller creations b.store), b) := by
  unfold parentsOf parentsIn
  split
  · rfl
  · rfl

theorem process_getMailboxes :
    attempt (getMailboxes.process v caller) b =
      ((argumentsOf listingArguments v).map fun ids =>
        let (views, notFound) := chooseViews caller.delimiter (b.store.list caller.user) ids
        listingValue caller.user views notFound, b) := by
  cases h : argumentsOf listingArguments v with
  | error e => exact attempt_bind_error (by rw [attempt_liftExcept, h])
  | ok ids =>
    refine (attempt_bind_ok (by rw [attempt_liftExcept, h])).trans ?_
    rfl

/-- Where the arguments are in order the creations are done in the store; else nothing is. -/
theorem process_setMailboxes :
    attempt (setMailboxes.process v caller) b =
      match argumentsOf creationArguments v with
      | .error e => (.error e, b)
      | .ok creations =>
        let (outcomes, store) := outcomesIn caller (parentsIn caller creations b.store) creations b.store
        (.ok (creationValue caller.user outcomes), { b with store := store }) := by
  cases h : argumentsOf creationArguments v with
  | error e => exact attempt_bind_error (by rw [attempt_liftExcept, h])
  | ok creations =>
    refine (attempt_bind_ok (by rw [attempt_liftExcept, h])).trans ?_
    rw [attempt_bind_ok (attempt_parentsOf caller b creations),
      attempt_bind_ok (attempt_createAll caller _ b creations)]
    rfl

end Methods

/-! ## Carrying out -/

/-- The method of a name is one of the two, or there is none. -/
theorem find?_mailboxMethods (name : String) :
    Methods.mailboxMethods.find? name = some setMailboxes ∨
    Methods.mailboxMethods.find? name = some getMailboxes ∨
    Methods.mailboxMethods.find? name = none := by
  by_cases hset : setMailboxes.name = name
  · exact Or.inl (List.find?_cons_of_pos (beq_iff_eq.mpr hset))
  right
  have hrest : Methods.mailboxMethods.find? name = [getMailboxes].find? (·.name == name) :=
    List.find?_cons_of_neg (by simpa using hset)
  rw [hrest]
  by_cases hget : getMailboxes.name = name
  · exact Or.inl (List.find?_cons_of_pos (beq_iff_eq.mpr hget))
  · exact Or.inr (List.find?_cons_of_neg (by simpa using hget))

/-- The answer to a call, from what the call came to. -/
def answerOf (i : Invocation) : Except MethodError (String × Value) → Result
  | .ok (name, value) => ⟨name, value, i.callId⟩
  | .error cause => .failed ((methodRules.resolve cause (Methods.context i)).action.toValue cause) i.callId

theorem outcome_execute (t : Methods) (i : Invocation) (caller : Caller) (b : Backend) :
    outcome (t.execute i caller) b =
      (answerOf i (outcome (t.call i caller) b).1, (outcome (t.call i caller) b).2) := by
  rw [Methods.execute, outcome_bind]
  generalize outcome (t.call i caller) b = o
  obtain ⟨result, after⟩ := o
  cases result <;> rfl

/-- A call comes to what its method comes to, or there is no such method. -/
theorem outcome_call (t : Methods) (i : Invocation) (caller : Caller) (b : Backend) :
    outcome (t.call i caller) b =
      match t.find? i.method with
      | none => (.error (.unknownMethod i.method), b)
      | some method =>
        ((attempt (method.process i.arguments caller) b).1.map fun v => (method.responseName, v),
          (attempt (method.process i.arguments caller) b).2) := by
  unfold Methods.call
  cases t.find? i.method with
  | none => rfl
  | some method => exact outcome_bind _ _ b

/-- **Carrying out a call.** The answer bears the id of the call. An error has changed nothing; no
call takes a mailbox away or touches the registry. -/
theorem execute_cases (i : Invocation) (caller : Caller) (b : Backend) :
    ∃ r after, outcome (Methods.mailboxMethods.execute i caller) b = (r, after) ∧
      r.callId = i.callId ∧ (r.name = errorName → after = b) ∧ Store.Keeps b.store after.store ∧
      after.registry = b.registry := by
  rw [outcome_execute, outcome_call]
  rcases find?_mailboxMethods i.method with h | h | h
  · rw [h]
    dsimp only
    rw [process_setMailboxes]
    cases argumentsOf creationArguments i.arguments with
    | error e => exact ⟨_, _, rfl, rfl, fun _ => rfl, Store.Keeps.refl _, rfl⟩
    | ok creations =>
      refine ⟨_, _, rfl, rfl, fun hname => ?_, keeps_outcomesIn _ _ _ _, rfl⟩
      have hdiffer : setMailboxes.responseName ≠ errorName := by decide
      exact absurd hname hdiffer
  · rw [h]
    dsimp only
    rw [process_getMailboxes]
    cases argumentsOf listingArguments i.arguments with
    | error e => exact ⟨_, _, rfl, rfl, fun _ => rfl, Store.Keeps.refl _, rfl⟩
    | ok ids => exact ⟨_, _, rfl, rfl, fun _ => rfl, Store.Keeps.refl _, rfl⟩
  · rw [h]
    exact ⟨_, _, rfl, rfl, fun _ => rfl, Store.Keeps.refl _, rfl⟩

end MailServer.Jmap
