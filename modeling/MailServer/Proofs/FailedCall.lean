import MailServer.Proofs.Calls
import MailServer.Proofs.Faults
import MailServer.Proofs.Run
import MailServer.Proofs.Shown

/-!
# Calls on a store that fails

A call of `setMailboxes` does its creations one after the other. A creation that the store refuses for
a cause of its own is answered under its id; an internal fault ends the call, with the creations before it
done.

* `create_ok`, `create_error` — what a creation has changed, by its outcome.
* `createAll_ok`, `createAll_error` — creations one after the other, and `createAll_stopped` up to one that
  fails.
* `Reaches`, `FailsAt` — how far a call comes, and the creation that it does not get past.
* `setMailboxes_cases` — how far a call has come, by its answer. `setMailboxes_failed_after_creating`
  is one that was answered with an error and had created a mailbox.
-/

namespace MailServer.Jmap

open Json (Value)
open Mailbox (Listing Path)
open Service (Attempt Call FailsCleanly Faulty Note Script)

variable {σ : Type} {answer : (c : Call) → σ → c.Reply × σ} {mailboxes : σ → Set Path}

/-! ### Creations -/

section Creations

variable {caller : Caller} {existing : List Listing}

/-- The causes for which a creation is answered under its own id. All others are faults of the store
and end the call. -/
def isExpected : Mailbox.Error → Bool
  | .alreadyExists _ | .nameTooLong _ _ | .invalidName _ _ => true
  | _ => false

/-- The store replies to a creation: the outcome, or the fault that ends the call. -/
theorem runs_create (answer : (c : Call) → σ → c.Reply × σ) {c : Creation} {path : Path}
    (hpath : creationPath caller existing c = .ok path) (s : σ) :
    Attempt.Runs answer (create caller existing c) s
      (match (answer (.createMailbox path) s).1 with
        | .ok id => .ok (.created id)
        | .error cause =>
          if isExpected cause then .ok (.ofReply (.error cause)) else .error (.mailbox cause))
      (answer (.createMailbox path) s).2 [] := by
  unfold create
  rw [hpath]
  refine Attempt.Runs.bind (x := liftM (Service.ask (.createMailbox path)))
    (a := (answer (.createMailbox path) s).1) rfl ?_
  cases (answer (.createMailbox path) s).1 with
  | ok id => rfl
  | error cause => cases cause <;> rfl

/-- A creation has changed something where it is answered that the mailbox was created, and only
there. -/
theorem create_ok (h : FailsCleanly answer mailboxes) {c : Creation} {s after : σ} {o : Outcome}
    {notes : List Note} (hrun : Attempt.Runs answer (create caller existing c) s (.ok o) after notes) :
    mailboxes s ⊆ mailboxes after ∧ (mailboxes after = mailboxes s ↔ o.isCreated = false) := by
  cases hpath : creationPath caller existing c with
  | error description =>
    unfold create at hrun
    rw [hpath] at hrun
    cases hrun
    simp [Outcome.invalid, Outcome.isCreated]
  | ok path =>
    have hcreate := runs_create answer hpath s
    cases hreply : (answer (.createMailbox path) s).1 with
    | ok id =>
      rw [hreply] at hcreate
      obtain ⟨ho, rfl, -⟩ := Script.Runs.unique hcreate hrun
      cases ho
      obtain ⟨hnew, hadded, hgrown⟩ := h.created hreply
      refine ⟨hgrown, fun hsame => absurd (hsame ▸ hadded) hnew, nofun⟩
    | error cause =>
      rw [hreply] at hcreate
      obtain ⟨ho, rfl, -⟩ := Script.Runs.unique hcreate hrun
      have hsame := h.refused hreply
      have hnot : o.isCreated = false := by
        dsimp only at ho
        split at ho
        · cases ho
          cases cause <;> rfl
        · cases ho
      simp [hsame, hnot]

/-- A creation fails only where the store fails at its path for a cause that is not expected. -/
theorem create_error {c : Creation} {s after : σ} {e : MethodError} {notes : List Note}
    (hrun : Attempt.Runs answer (create caller existing c) s (.error e) after notes) :
    ∃ path cause, creationPath caller existing c = .ok path ∧
      (answer (.createMailbox path) s).1 = .error cause ∧ isExpected cause = false ∧
      after = (answer (.createMailbox path) s).2 := by
  cases hpath : creationPath caller existing c with
  | error description =>
    unfold create at hrun
    rw [hpath] at hrun
    cases hrun
  | ok path =>
    have hcreate := runs_create answer hpath s
    obtain ⟨he, rfl, -⟩ := Script.Runs.unique hcreate hrun
    cases hreply : (answer (.createMailbox path) s).1 with
    | ok id =>
      rw [hreply] at he
      cases he
    | error cause =>
      refine ⟨path, cause, rfl, hreply, ?_, rfl⟩
      rw [hreply] at he
      dsimp only at he
      split at he
      · cases he
      · rename_i hunexpected
        exact Bool.not_eq_true _ ▸ hunexpected

/-- Creations one after the other have changed something where one of them is answered that the
mailbox was created, and only there. Induction on the creations. -/
theorem createAll_ok (h : FailsCleanly answer mailboxes) {creations : List (String × Creation)}
    {s after : σ} {outcomes : List (String × Outcome)} {notes : List Note}
    (hrun : Attempt.Runs answer (createAll caller existing creations) s (.ok outcomes) after notes) :
    mailboxes s ⊆ mailboxes after ∧
      (mailboxes after = mailboxes s ↔ ∀ o ∈ outcomes, o.2.isCreated = false) := by
  induction creations generalizing s outcomes notes with
  | nil =>
    cases hrun
    simp
  | cons c creations ih =>
    obtain ⟨id, c⟩ := c
    obtain ⟨o, between, n₁, n₂, hfirst, hthen⟩ := Attempt.Runs.of_bind_ok hrun
    obtain ⟨os, last, n₃, n₄, hrest, hdone⟩ := Attempt.Runs.of_bind_ok hthen
    cases hdone
    obtain ⟨hgrown, hcreated⟩ := create_ok h hfirst
    obtain ⟨hgrown', hcreated'⟩ := ih hrest
    refine ⟨hgrown.trans hgrown', ?_⟩
    rw [List.forall_mem_cons, ← hcreated, ← hcreated']
    constructor
    · -- what comes back to its beginning has not grown on the way
      intro hsame
      have hbetween : mailboxes between = mailboxes s :=
        Set.Subset.antisymm (hsame ▸ hgrown') hgrown
      exact ⟨hbetween, hsame.trans hbetween.symm⟩
    · rintro ⟨hfirst, hrest⟩
      exact hrest.trans hfirst

/-- Creations that end in a fault have been done up to the one that met it. Induction on the
creations. -/
theorem createAll_error {creations : List (String × Creation)} {s after : σ} {e : MethodError}
    {notes : List Note}
    (hrun : Attempt.Runs answer (createAll caller existing creations) s (.error e) after notes) :
    ∃ done id c rest outcomes reached n₁ n₂, creations = done ++ (id, c) :: rest ∧
      Attempt.Runs answer (createAll caller existing done) s (.ok outcomes) reached n₁ ∧
      Attempt.Runs answer (create caller existing c) reached (.error e) after n₂ := by
  induction creations generalizing s notes with
  | nil => cases hrun
  | cons c creations ih =>
    obtain ⟨id, c⟩ := c
    rcases Attempt.Runs.of_bind_error hrun with hfailed | ⟨o, between, n₁, n₂, hfirst, hthen⟩
    · exact ⟨[], id, c, creations, [], s, [], notes, rfl, Attempt.runs_pure _ _, hfailed⟩
    rcases Attempt.Runs.of_bind_error hthen with hfailed | ⟨os, last, n₃, n₄, -, hdone⟩
    · obtain ⟨done, id', c', rest, outcomes, reached, n₃, n₄, rfl, hdone, hstopped⟩ := ih hfailed
      exact ⟨(id, c) :: done, id', c', rest, (id, o) :: outcomes, reached, _, n₄, rfl,
        hfirst.bind (hdone.bind (Attempt.runs_pure _ _)), hstopped⟩
    · cases hdone

/-- Creations end in the first failure, whatever would come behind it. Induction on those that are done. -/
theorem createAll_stopped {done rest : List (String × Creation)} {id : String} {c : Creation}
    {s reached after : σ} {outcomes : List (String × Outcome)} {e : MethodError} {n₁ n₂ : List Note}
    (hdone : Attempt.Runs answer (createAll caller existing done) s (.ok outcomes) reached n₁)
    (hfault : Attempt.Runs answer (create caller existing c) reached (.error e) after n₂) :
    ∃ notes, Attempt.Runs answer (createAll caller existing (done ++ (id, c) :: rest)) s (.error e) after
      notes := by
  induction done generalizing s outcomes n₁ with
  | nil =>
    cases hdone
    exact ⟨_, hfault.bind_error⟩
  | cons first done ih =>
    obtain ⟨key, first⟩ := first
    obtain ⟨o, between, n₃, n₄, hfirst, hthen⟩ := Attempt.Runs.of_bind_ok hdone
    obtain ⟨os, last, n₅, n₆, hrest, hvalue⟩ := Attempt.Runs.of_bind_ok hthen
    cases hvalue
    obtain ⟨notes, hstopped⟩ := ih hrest
    exact ⟨_, hfirst.bind hstopped.bind_error⟩

/-- The listing of the parents changes nothing. -/
theorem runs_parentsOf (h : FailsCleanly answer mailboxes) {creations : List (String × Creation)}
    {s after : σ} {result : Except MethodError (List Listing)} {notes : List Note}
    (hrun : Attempt.Runs answer (parentsOf caller creations) s result after notes) :
    mailboxes after = mailboxes s := by
  unfold parentsOf at hrun
  split at hrun
  · have hread : mailboxes (answer (.listMailboxes caller.user) s).2 = mailboxes s :=
      h.read (by simp)
    rcases Attempt.Runs.of_bind hrun with ⟨_, -, hasked⟩ | ⟨reply, listed, n₁, n₂, hasked, hthen⟩
    · cases hasked
    · cases hasked
      cases hreply : (answer (.listMailboxes caller.user) s).1 with
      | error cause =>
        rw [hreply] at hthen
        cases hthen
        exact hread
      | ok listings =>
        rw [hreply] at hthen
        cases hthen
        exact hread
  · cases hrun
    rfl

end Creations

/-! ### The whole call -/

/-- From `s` the call has found the mailboxes among which it looks for parents and done the first of its
creations, with these outcomes; it is in `reached`, with the others still to do. -/
def Reaches (answer : (c : Call) → σ → c.Reply × σ) (caller : Caller)
    (creations : List (String × Creation)) (s : σ) (existing : List Listing)
    (outcomes : List (String × Outcome)) (reached : σ) (rest : List (String × Creation)) : Prop :=
  ∃ done listed n₁ n₂, creations = done ++ rest ∧
    Attempt.Runs answer (parentsOf caller creations) s (.ok existing) listed n₁ ∧
    Attempt.Runs answer (createAll caller existing done) listed (.ok outcomes) reached n₂

/-- From `s` the call has come to a creation with these outcomes behind it, and in `reached` the store fails
at the path of this creation. -/
def FailsAt (answer : (c : Call) → σ → c.Reply × σ) (caller : Caller) (creations : List (String × Creation))
    (s : σ) (outcomes : List (String × Outcome)) (reached : σ) (cause : Mailbox.Error) : Prop :=
  ∃ existing id c rest path, Reaches answer caller creations s existing outcomes reached ((id, c) :: rest) ∧
    creationPath caller existing c = .ok path ∧ (answer (.createMailbox path) reached).1 = .error cause

/-- On the way there mailboxes have changed where an outcome says that one was created, and only
there. -/
theorem Reaches.unchanged_iff (h : FailsCleanly answer mailboxes) {caller : Caller}
    {creations rest : List (String × Creation)} {s reached : σ} {existing : List Listing}
    {outcomes : List (String × Outcome)}
    (hreaches : Reaches answer caller creations s existing outcomes reached rest) :
    mailboxes reached = mailboxes s ↔ ∀ o ∈ outcomes, o.2.isCreated = false := by
  obtain ⟨done, listed, n₁, n₂, -, hparents, hdone⟩ := hreaches
  rw [← runs_parentsOf h hparents]
  exact (createAll_ok h hdone).2

theorem FailsAt.unchanged_iff (h : FailsCleanly answer mailboxes) {caller : Caller}
    {creations : List (String × Creation)} {s reached : σ} {outcomes : List (String × Outcome)}
    {cause : Mailbox.Error} (hfails : FailsAt answer caller creations s outcomes reached cause) :
    mailboxes reached = mailboxes s ↔ ∀ o ∈ outcomes, o.2.isCreated = false := by
  obtain ⟨existing, id, c, rest, path, hreaches, -, -⟩ := hfails
  exact hreaches.unchanged_iff h

/-- A call that found its method answers with what the method came to. -/
theorem runs_execute {t : Methods} {i : Invocation} {caller : Caller} {method : Method}
    (hfind : t.find? i.method = some method) {s after : σ} {result : Except MethodError Value}
    {notes : List Note} (h : Attempt.Runs answer (method.process i.arguments caller) s result after notes) :
    ∃ notes, Script.Runs answer (t.execute i caller) s
      (answerOf i (result.map fun v => (method.responseName, v))) after notes := by
  have hcall : Script.Runs answer (t.call i caller) s
      (result.map fun v => (method.responseName, v)) after (notes ++ []) := by
    unfold Methods.call
    rw [hfind]
    exact Script.Runs.bind h (Script.runs_pure _ _)
  unfold Methods.execute
  cases result with
  | ok v => exact ⟨_, Script.Runs.bind hcall (Script.runs_pure _ _)⟩
  | error e =>
    exact ⟨_, Script.Runs.bind hcall (Script.Runs.bind (Script.runs_log _ _) (Script.runs_pure _ _))⟩

/-- A `setMailboxes` that comes to a value has done all of its creations. -/
theorem setMailboxes_ok {arguments v : Value} {caller : Caller} {s after : σ} {notes : List Note}
    (hrun : Attempt.Runs answer (setMailboxes.process arguments caller) s (.ok v) after notes) :
    ∃ creations existing outcomes, argumentsOf creationArguments arguments = .ok creations ∧
      Reaches answer caller creations s existing outcomes after [] ∧
      v = creationValue caller.user outcomes := by
  obtain ⟨creations, s₁, n₁, n₂, hread, hthen⟩ := Attempt.Runs.of_bind_ok hrun
  obtain ⟨existing, listed, n₃, n₄, hlist, hthen⟩ := Attempt.Runs.of_bind_ok hthen
  obtain ⟨outcomes, last, n₅, n₆, hdone, hvalue⟩ := Attempt.Runs.of_bind_ok hthen
  obtain ⟨hcreations, rfl, -⟩ := Script.Runs.unique (Attempt.runs_liftExcept _ s) hread
  cases hvalue
  exact ⟨creations, existing, outcomes, hcreations,
    ⟨creations, listed, _, _, (List.append_nil _).symm, hlist, hdone⟩, rfl⟩

/-- A `setMailboxes` that comes to an error has changed nothing, or it has come to a creation at which the
store failed; and the failure has changed nothing. -/
theorem setMailboxes_error (h : FailsCleanly answer mailboxes) {arguments : Value} {e : MethodError}
    {caller : Caller} {s after : σ} {notes : List Note}
    (hrun : Attempt.Runs answer (setMailboxes.process arguments caller) s (.error e) after notes) :
    mailboxes after = mailboxes s ∨
    ∃ creations outcomes reached cause, argumentsOf creationArguments arguments = .ok creations ∧
      FailsAt answer caller creations s outcomes reached cause ∧ isExpected cause = false ∧
      mailboxes after = mailboxes reached := by
  rcases Attempt.Runs.of_bind_error hrun with hunread | ⟨creations, s₁, n₁, n₂, hread, hthen⟩
  · obtain ⟨-, rfl, -⟩ := Script.Runs.unique (Attempt.runs_liftExcept _ s) hunread
    exact Or.inl rfl
  obtain ⟨hcreations, rfl, -⟩ := Script.Runs.unique (Attempt.runs_liftExcept _ s) hread
  rcases Attempt.Runs.of_bind_error hthen with hunlisted | ⟨existing, listed, n₃, n₄, hlist, hthen⟩
  · exact Or.inl (runs_parentsOf h hunlisted)
  rcases Attempt.Runs.of_bind_error hthen with hstopped | ⟨outcomes, last, n₅, n₆, -, hvalue⟩
  · obtain ⟨done, id, c, rest, outcomes, reached, n₅, n₆, hsplit, hdone, hfault⟩ :=
      createAll_error hstopped
    obtain ⟨path, cause, hpath, hreply, hunexpected, rfl⟩ := create_error hfault
    exact Or.inr ⟨creations, outcomes, reached, cause, hcreations,
      ⟨existing, id, c, rest, path, ⟨done, listed, _, _, hsplit, hlist, hdone⟩, hpath, hreply⟩,
      hunexpected, h.refused hreply⟩
  · cases hvalue

/-- A `setMailboxes` whose creations come to one at which the store meets an internal fault comes to an
error, with the mailboxes of that moment. -/
theorem setMailboxes_stopped (h : FailsCleanly answer mailboxes) {arguments : Value} {caller : Caller}
    {creations : List (String × Creation)} {outcomes : List (String × Outcome)} {s reached : σ}
    {message : String} (hread : argumentsOf creationArguments arguments = .ok creations)
    (hfails : FailsAt answer caller creations s outcomes reached (.internal message)) :
    ∃ after notes, Attempt.Runs answer (setMailboxes.process arguments caller) s
      (.error (.mailbox (.internal message))) after notes ∧ mailboxes after = mailboxes reached := by
  obtain ⟨existing, id, c, rest, path, ⟨done, listed, n₁, n₂, rfl, hlist, hdone⟩, hpath, hreply⟩ := hfails
  have hfault := runs_create answer hpath reached
  rw [hreply] at hfault
  obtain ⟨notes, hstopped⟩ : ∃ notes, Attempt.Runs answer
      (createAll caller existing (done ++ (id, c) :: rest)) listed (.error (.mailbox (.internal message)))
      (answer (.createMailbox path) reached).2 notes := createAll_stopped hdone hfault
  have harguments : Attempt.Runs (ε := MethodError) answer (liftM (argumentsOf creationArguments arguments))
      s (.ok (done ++ (id, c) :: rest)) s [] := by
    rw [← hread]
    exact Attempt.runs_liftExcept _ s
  exact ⟨_, _, harguments.bind (hlist.bind hstopped.bind_error), h.refused hreply⟩

/-- **A `setMailboxes` call on a store that fails cleanly.** Where it is answered with an error, nothing has
changed, unless it came to a creation at which the store failed for a cause that is not expected. Where the
cause is an internal fault, mailboxes had been created before that creation, and the mailboxes are those of
the moment when it was asked for. A call that comes to a creation at which the store meets an internal fault
is answered with an error, and leaves the mailboxes of that moment. A call that is not answered with an error
has done all of its creations; the answer shows those that were created, all of them, and mailboxes have
changed where there are any of them, and only there. -/
theorem setMailboxes_cases (h : FailsCleanly answer mailboxes) (arguments : Value) (callId : String)
    (caller : Caller) (s : σ) :
    let run := (Methods.mailboxMethods.execute ⟨"setMailboxes", arguments, callId⟩ caller).run answer s
    (run.1.name = "error" →
      mailboxes run.2.1 = mailboxes s ∨
      ∃ creations outcomes reached cause, argumentsOf creationArguments arguments = .ok creations ∧
        FailsAt answer caller creations s outcomes reached cause ∧ isExpected cause = false ∧
        ∀ message, cause = .internal message →
          mailboxes run.2.1 = mailboxes reached ∧ ∃ o ∈ outcomes, o.2.isCreated = true) ∧
    (∀ creations outcomes reached message, argumentsOf creationArguments arguments = .ok creations →
      FailsAt answer caller creations s outcomes reached (.internal message) →
      run.1 = ⟨"error", .object [("type", .string "serverFail")], callId⟩ ∧
        mailboxes run.2.1 = mailboxes reached ∧
        (mailboxes reached = mailboxes s ↔ ∀ o ∈ outcomes, o.2.isCreated = false)) ∧
    (run.1.name ≠ "error" →
      ∃ creations existing outcomes created notCreated,
        argumentsOf creationArguments arguments = .ok creations ∧
        Reaches answer caller creations s existing outcomes run.2.1 [] ∧
        run.1 = ⟨"mailboxesSet", .object [("accountId", .string caller.user), ("created", .object created),
          ("notCreated", .object notCreated)], callId⟩ ∧
        (∀ key v, (key, v) ∈ created → ∃ id, (key, .created id) ∈ outcomes ∧
          v = .object [("id", .string (toString id.number.toNat))]) ∧
        (∀ key id, (key, .created id) ∈ outcomes → key ∈ created.map (·.1)) ∧
        (mailboxes run.2.1 = mailboxes s ↔ created = [])) := by
  intro run
  obtain ⟨result, after, notes, hprocess⟩ :=
    Attempt.runs_total answer (setMailboxes.process arguments caller) s
  have hfind : Methods.mailboxMethods.find? "setMailboxes" = some setMailboxes := rfl
  obtain ⟨notes', hexecute⟩ :=
    runs_execute (i := ⟨"setMailboxes", arguments, callId⟩) hfind hprocess
  have hrun : run = _ := hexecute
  rw [hrun]
  refine ⟨?_, ?_, ?_⟩
  · intro hfailed
    cases result with
    | ok v => exact absurd hfailed (show ¬ "mailboxesSet" = "error" by decide)
    | error e =>
      rcases setMailboxes_error h hprocess with hsame | ⟨creations, outcomes, reached, cause, hread, hfails,
        hunexpected, hkept⟩
      · exact Or.inl hsame
      by_cases hcreated : ∀ o ∈ outcomes, o.2.isCreated = false
      · exact Or.inl (hkept.trans ((hfails.unchanged_iff h).mpr hcreated))
      · simp only [not_forall, Bool.not_eq_false, exists_prop] at hcreated
        exact Or.inr ⟨creations, outcomes, reached, cause, hread, hfails, hunexpected,
          fun message _ => ⟨hkept, hcreated⟩⟩
  · intro creations outcomes reached message hread hfails
    obtain ⟨after', notes', hstopped, hkept⟩ := setMailboxes_stopped h hread hfails
    obtain ⟨rfl, rfl, -⟩ := Script.Runs.unique hstopped hprocess
    exact ⟨rfl, hkept, hfails.unchanged_iff h⟩
  · intro hanswered
    cases result with
    | error e => exact absurd rfl hanswered
    | ok v =>
      obtain ⟨creations, existing, outcomes, hread, hreaches, rfl⟩ := setMailboxes_ok hprocess
      refine ⟨creations, existing, outcomes, Keyed.ofList (membersOf (·.isCreated) outcomes),
        Keyed.ofList (membersOf (!·.isCreated) outcomes), hread, hreaches, ?_, ?_, ?_, ?_⟩
      · rw [← creationValue_members]
        rfl
      · intro key v hmem
        obtain ⟨o, ho, hkind, rfl⟩ := mem_membersOf.mp (Keyed.mem_of_mem_ofList hmem)
        cases o with
        | created id => exact ⟨id, ho, rfl⟩
        | notCreated => cases hkind
      · intro key id hmem
        exact Keyed.key_mem_ofList.mpr (List.mem_map_of_mem (mem_membersOf.mpr ⟨_, hmem, rfl, rfl⟩))
      · rw [Keyed.ofList_eq_nil_iff, membersOf_eq_nil_iff]
        exact hreaches.unchanged_iff h

/-- Two creations, of which the store refuses the second for its name: the call is answered, and the
client is told of the first. -/
theorem setMailboxes_cases_refused_name :
    let arguments : Value := .object [("create", .object [("a", .object [("name", .string "A")]),
      ("b", .object [("name", .string "B")])])]
    let s : Faulty := ⟨.empty 200 '.', [none, some (.nameTooLong "B" 0)]⟩
    let run := (Methods.mailboxMethods.execute ⟨"setMailboxes", arguments, "c1"⟩ ⟨"ann", '.'⟩).run
      Faulty.answer s
    FailsCleanly Faulty.answer Faulty.mailboxes ∧ run.1.name ≠ "error" ∧
      ∃ created notCreated, run.1 = ⟨"mailboxesSet", .object [("accountId", .string "ann"),
        ("created", .object created), ("notCreated", .object notCreated)], "c1"⟩ ∧ created ≠ [] := by
  intro arguments s run
  have hanswered : run.1.name ≠ "error" := by decide +kernel
  have habsent : ⟨"ann", "A"⟩ ∉ s.mailboxes := by
    show ¬ _ = true
    decide +kernel
  have hthere : ⟨"ann", "A"⟩ ∈ run.2.1.mailboxes := by
    show _ = true
    decide +kernel
  obtain ⟨creations, existing, outcomes, created, notCreated, -, -, hrun, -, -, hsame⟩ :=
    (setMailboxes_cases Faulty.failsCleanly arguments "c1" ⟨"ann", '.'⟩ s).2.2 hanswered
  exact ⟨Faulty.failsCleanly, hanswered, created, notCreated, hrun,
    fun hnone => habsent (hsame.mpr hnone ▸ hthere)⟩

/-- **A `setMailboxes` call that is answered with an error may have created a mailbox**: the second of
two creations met an internal fault, and the answer does not tell of the first. -/
theorem setMailboxes_failed_after_creating :
    let arguments : Value := .object [("create", .object [("a", .object [("name", .string "A")]),
      ("b", .object [("name", .string "B")])])]
    let s : Faulty := ⟨.empty 200 '.', [none, some (.internal "disk gone")]⟩
    let run := (Methods.mailboxMethods.execute ⟨"setMailboxes", arguments, "c1"⟩ ⟨"ann", '.'⟩).run
      Faulty.answer s
    FailsCleanly Faulty.answer Faulty.mailboxes ∧
      run.1 = ⟨"error", .object [("type", .string "serverFail")], "c1"⟩ ∧
      ⟨"ann", "A"⟩ ∉ s.mailboxes ∧ ⟨"ann", "A"⟩ ∈ run.2.1.mailboxes := by
  refine ⟨Faulty.failsCleanly, by rfl, ?_, ?_⟩
  · show ¬ _ = true
    decide +kernel
  · show _ = true
    decide +kernel

end MailServer.Jmap
