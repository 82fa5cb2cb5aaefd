import MailServer.Proofs.Command
import MailServer.Proofs.Faults
import MailServer.Proofs.Run

/-!
# Commands on a store that fails

A `SELECT` makes one call and a `CREATE` two: behind the creation it looks at the selected mailbox.
Where that look fails, the command is answered as one that failed, and the mailbox is there.

* `CreateWay` — the ways of a `CREATE`; `exists_createWay`, `CreateWay.runs` — it runs along one.
* `create_ok_iff` — it is answered with OK where it has added its mailbox and then could look at the
  selected one. `create_refused_after_adding` is one that could not.
-/

namespace MailServer.Imap

open Mailbox (Path)
open Service (Attempt Call FailsCleanly Faulty Note Script ask)

variable {σ : Type} {answer : (c : Call) → σ → c.Reply × σ} {mailboxes : σ → Set Path}

namespace Session

/-- A look at the selected mailbox would fail. Where none is selected there is none to fail. -/
def PollFails (answer : (c : Call) → σ → c.Reply × σ) (session : Session) (s : σ) : Prop :=
  ∃ selection e, session.selected = some selection ∧ (answer (.status selection.path) s).1 = .error e

/-- A look at the selected mailbox changes no mailbox, and what it tells has no tagged line. -/
theorem poll_cases (h : FailsCleanly answer mailboxes) {session : Session} {s after : σ}
    {result : Except Mailbox.Error (Session × List Response)} {notes : List Note}
    (hrun : Attempt.Runs answer session.poll s result after notes) :
    mailboxes after = mailboxes s ∧
      ((∃ e, result = .error e) ↔ session.PollFails answer s) ∧
      ∀ polled news, result = .ok (polled, news) → news.filterMap Response.tagged? = [] := by
  unfold poll at hrun
  unfold PollFails
  cases hselected : session.selected with
  | none =>
    rw [hselected] at hrun
    cases hrun
    refine ⟨rfl, by simp, ?_⟩
    rintro polled news ⟨⟩
    rfl
  | some selection =>
    rw [hselected] at hrun
    have hread : mailboxes (answer (.status selection.path) s).2 = mailboxes s := h.read (by simp)
    have hasked : Attempt.Runs answer (ExceptT.mk (ask (.status selection.path))) s
        (answer (.status selection.path) s).1 (answer (.status selection.path) s).2 [] :=
      Script.runs_ask answer (.status selection.path) s
    rcases Attempt.Runs.of_bind hrun with ⟨e, rfl, hfailed⟩ | ⟨status, told, n₁, n₂, hknown, hthen⟩
    · obtain ⟨hreply, rfl, -⟩ := Script.Runs.unique hasked hfailed
      exact ⟨hread, by simp [hreply], nofun⟩
    · obtain ⟨hreply, rfl, -⟩ := Script.Runs.unique hasked hknown
      -- the client is told of the number of messages, or knows it
      split at hthen
      · cases hthen
        refine ⟨hread, by simp [hreply], ?_⟩
        rintro polled news ⟨⟩
        rfl
      · cases hthen
        refine ⟨hread, by simp [hreply], ?_⟩
        rintro polled news ⟨⟩
        rfl

end Session

namespace Command

/-- A command that succeeds answers as it has found. -/
theorem runs_process_ok {c : Command} {session : Session} {s after : σ} {notes : List Note}
    {result : Session × List Response}
    (h : Attempt.Runs answer (c.attempt session) s (.ok result) after notes) :
    Script.Runs answer (c.process session) s result after (notes ++ []) :=
  Script.Runs.bind h (Script.runs_pure _ _)

/-- A command that fails answers by its rules. -/
theorem runs_process_error {c : Command} {session : Session} {s after : σ} {notes : List Note}
    {cause : Mailbox.Error} (h : Attempt.Runs answer (c.attempt session) s (.error cause) after notes) :
    Script.Runs answer (c.process session) s
      (c.sessionAfterFailure session,
        [.tagged ((c.verb.rules.resolve cause c.context).action.line c.tag c.verb.name)])
      after (notes ++ [.logged (c.verb.rules.resolve cause c.context).event]) :=
  Script.Runs.bind h (Script.Runs.bind (Script.runs_log _ _) (Script.runs_pure _ _))

/-- The answer to a command that fails is one tagged line, which is not OK. -/
theorem answer_of_error {c : Command} {session : Session} {s after : σ} {notes : List Note}
    {cause : Mailbox.Error} (h : Attempt.Runs answer (c.attempt session) s (.error cause) after notes) :
    ∃ line, ((c.process session).run answer s).1.2 = [.tagged line] ∧ line.tag = c.tag ∧
      line.status ≠ .ok ∧ ((c.process session).run answer s).2.1 = after := by
  have hrun : (c.process session).run answer s = _ := runs_process_error h
  rw [hrun]
  exact ⟨_, rfl, rfl, status_of_rules c.verb cause c.context, rfl⟩

section Way

variable (answer : (c : Call) → σ → c.Reply × σ) (c : Command) (session : Session) (s : σ)

/-- The ways of a `CREATE`: what it comes to and the state that it leaves. The name does not resolve;
the store refuses the creation; or the mailbox is created, and a look at the selected one fails or
tells of it. -/
inductive CreateWay : Except Mailbox.Error (Session × List Response) → σ → Prop
  | unresolved {cause : Mailbox.Error} (hresolve : Mailbox.resolve session.caller c.mailbox = .error cause) :
      CreateWay (.error cause) s
  | refused {path : Path} {cause : Mailbox.Error}
      (hresolve : Mailbox.resolve session.caller c.mailbox = .ok path)
      (hcreate : (answer (.createMailbox path) s).1 = .error cause) :
      CreateWay (.error cause) (answer (.createMailbox path) s).2
  | unpolled {path : Path} {id : Mailbox.Id} {cause : Mailbox.Error} {after : σ} {notes : List Note}
      (hresolve : Mailbox.resolve session.caller c.mailbox = .ok path)
      (hcreate : (answer (.createMailbox path) s).1 = .ok id)
      (hpoll : Attempt.Runs answer session.poll (answer (.createMailbox path) s).2 (.error cause) after
        notes) :
      CreateWay (.error cause) after
  | created {path : Path} {id : Mailbox.Id} {polled : Session} {news : List Response} {after : σ}
      {notes : List Note} (hresolve : Mailbox.resolve session.caller c.mailbox = .ok path)
      (hcreate : (answer (.createMailbox path) s).1 = .ok id)
      (hpoll : Attempt.Runs answer session.poll (answer (.createMailbox path) s).2 (.ok (polled, news))
        after notes) :
      CreateWay (.ok (polled, news ++ [c.completed none])) after

theorem exists_createWay : ∃ result after, CreateWay answer c session s result after := by
  cases hresolve : Mailbox.resolve session.caller c.mailbox with
  | error cause => exact ⟨_, _, .unresolved hresolve⟩
  | ok path =>
    cases hcreate : (answer (.createMailbox path) s).1 with
    | error cause => exact ⟨_, _, .refused hresolve hcreate⟩
    | ok id =>
      obtain ⟨result, after, notes, hpoll⟩ :=
        Attempt.runs_total answer session.poll (answer (.createMailbox path) s).2
      cases result with
      | error cause => exact ⟨_, _, .unpolled hresolve hcreate hpoll⟩
      | ok told => exact ⟨_, _, .created hresolve hcreate hpoll⟩

variable {answer c session s}

/-- A `CREATE` runs along its way. -/
theorem CreateWay.runs {result : Except Mailbox.Error (Session × List Response)} {after : σ}
    (h : CreateWay answer c session s result after) :
    ∃ notes, Attempt.Runs answer (c.create session) s result after notes := by
  have hresolved : Attempt.Runs answer (liftM (Mailbox.resolve session.caller c.mailbox)) s
      (Mailbox.resolve session.caller c.mailbox) s [] := Attempt.runs_liftExcept _ s
  have hasked : ∀ path, Attempt.Runs answer (ExceptT.mk (ask (.createMailbox path))) s
      (answer (.createMailbox path) s).1 (answer (.createMailbox path) s).2 [] :=
    fun path => Script.runs_ask answer (.createMailbox path) s
  unfold create
  cases h with
  | unresolved hresolve =>
    rw [hresolve] at hresolved ⊢
    exact ⟨_, hresolved.bind_error⟩
  | @refused path cause hresolve hcreate =>
    rw [hresolve] at hresolved ⊢
    have hrefused := hasked path
    rw [hcreate] at hrefused
    exact ⟨_, hresolved.bind hrefused.bind_error⟩
  | @unpolled path id cause after notes hresolve hcreate hpoll =>
    rw [hresolve] at hresolved ⊢
    have hmade := hasked path
    rw [hcreate] at hmade
    exact ⟨_, hresolved.bind (hmade.bind hpoll.bind_error)⟩
  | @created path id polled news after notes hresolve hcreate hpoll =>
    rw [hresolve] at hresolved ⊢
    have hmade := hasked path
    rw [hcreate] at hmade
    exact ⟨_, hresolved.bind (hmade.bind (hpoll.bind (Attempt.runs_pure _ _)))⟩

end Way

/-- **A `CREATE` on a store that fails cleanly** is answered by one tagged line, behind what is told of
the selected mailbox. A name that does not resolve changes nothing. Else the answer is OK where the
mailbox has been added and the look at the selected mailbox did not fail behind that; and where the
answer is not OK, nothing has changed, unless the mailbox has been added and it was this look that
failed. -/
theorem create_ok_iff (h : FailsCleanly answer mailboxes) (tag name : String) (session : Session)
    (s : σ) :
    let run := (Command.process ⟨tag, .create, name⟩ session).run answer s
    ∃ news line, run.1.2 = news ++ [.tagged line] ∧ news.filterMap Response.tagged? = [] ∧
      line.tag = tag ∧
      match Mailbox.resolve session.caller name with
      | .error _ => line.status ≠ .ok ∧ mailboxes run.2.1 = mailboxes s
      | .ok path =>
        (line.status = .ok ↔ (path ∉ mailboxes s ∧ path ∈ mailboxes run.2.1) ∧
          ¬ session.PollFails answer (answer (.createMailbox path) s).2) ∧
        (line.status ≠ .ok → mailboxes run.2.1 = mailboxes s ∨
          (path ∉ mailboxes s ∧ path ∈ mailboxes run.2.1) ∧
            session.PollFails answer (answer (.createMailbox path) s).2) := by
  intro run
  obtain ⟨result, after, hway⟩ := exists_createWay answer ⟨tag, .create, name⟩ session s
  obtain ⟨notes, hattempt⟩ := hway.runs
  cases hway with
  | unresolved hresolve =>
    obtain ⟨line, hlines, htag, hstatus, hafter⟩ := answer_of_error (c := ⟨tag, .create, name⟩) hattempt
    rw [hresolve]
    exact ⟨[], line, hlines, rfl, htag, hstatus, congrArg mailboxes hafter⟩
  | refused hresolve hcreate =>
    obtain ⟨line, hlines, htag, hstatus, hafter⟩ := answer_of_error (c := ⟨tag, .create, name⟩) hattempt
    have hkept : mailboxes run.2.1 = mailboxes s := (congrArg mailboxes hafter).trans (h.refused hcreate)
    rw [hresolve]
    refine ⟨[], line, hlines, rfl, htag, ⟨fun hok => absurd hok hstatus, ?_⟩, fun _ => Or.inl hkept⟩
    exact fun hok => absurd (hkept ▸ hok.1.2) hok.1.1
  | unpolled hresolve hcreate hpoll =>
    obtain ⟨line, hlines, htag, hstatus, hafter⟩ := answer_of_error (c := ⟨tag, .create, name⟩) hattempt
    obtain ⟨hnew, hadded, -⟩ := h.created hcreate
    obtain ⟨hkept, hfails, -⟩ := Session.poll_cases h hpoll
    have hfailed := hfails.mp ⟨_, rfl⟩
    rw [← hkept, ← hafter] at hadded
    rw [hresolve]
    refine ⟨[], line, hlines, rfl, htag, ⟨fun hok => absurd hok hstatus, ?_⟩, ?_⟩
    · exact fun hok => absurd hfailed hok.2
    · exact fun _ => Or.inr ⟨⟨hnew, hadded⟩, hfailed⟩
  | created hresolve hcreate hpoll =>
    have hrun : run = _ := runs_process_ok (c := ⟨tag, .create, name⟩) hattempt
    obtain ⟨hnew, hadded, -⟩ := h.created hcreate
    obtain ⟨hkept, hfails, hnews⟩ := Session.poll_cases h hpoll
    rw [← hkept] at hadded
    have hlooked : ¬ session.PollFails answer _ := fun hfailed => nomatch hfails.mpr hfailed
    rw [hrun, hresolve]
    exact ⟨_, _, rfl, hnews _ _ rfl, rfl, ⟨fun _ => ⟨⟨hnew, hadded⟩, hlooked⟩, fun _ => rfl⟩,
      fun hno => absurd rfl hno⟩

/-- A disk that is full refuses the mailbox, and the client is told so. -/
theorem create_ok_iff_refused :
    let b := (Service.Backend.answer (.createMailbox ⟨"ann", "INBOX"⟩) (.empty 200 '.')).2
    let session : Session := ⟨⟨"ann", '.'⟩, some ⟨⟨"ann", "INBOX"⟩, 0⟩⟩
    let s : Faulty := ⟨b, [some (.store "disk full")]⟩
    let run := (Command.process ⟨"a2", .create, "Work"⟩ session).run Faulty.answer s
    run.1.2 = [.tagged ⟨"a2", .no, none, "CREATE", .processingFailed⟩] ∧
      run.2.1.mailboxes = s.mailboxes := by
  intro b session s run
  have hlines : run.1.2 = [.tagged ⟨"a2", .no, none, "CREATE", .processingFailed⟩] := by
    decide +kernel
  have hresolve : Mailbox.resolve session.caller "Work" = .ok ⟨"ann", "Work"⟩ := by decide +kernel
  have habsent : ⟨"ann", "Work"⟩ ∉ run.2.1.mailboxes := by
    show ¬ _ = true
    decide +kernel
  obtain ⟨news, line, hanswer, -, -, hway⟩ :=
    create_ok_iff Faulty.failsCleanly "a2" "Work" session s
  rw [hresolve] at hway
  obtain ⟨-, hkept⟩ := hway
  have hline : line.status ≠ .ok := by
    have hlast := congrArg List.getLast? (hlines.symm.trans hanswer)
    rw [List.getLast?_concat] at hlast
    cases hlast
    decide
  exact ⟨hlines, (hkept hline).resolve_right fun hadded => habsent hadded.1.2⟩

/-- **A `CREATE` that adds its mailbox may be answered with NO**: the mailbox was added, and it was the
look at the selected one that met the full disk. -/
theorem create_refused_after_adding :
    let b := (Service.Backend.answer (.createMailbox ⟨"ann", "INBOX"⟩) (.empty 200 '.')).2
    let session : Session := ⟨⟨"ann", '.'⟩, some ⟨⟨"ann", "INBOX"⟩, 0⟩⟩
    let s : Faulty := ⟨b, [none, some (.store "disk full")]⟩
    let run := (Command.process ⟨"a2", .create, "Work"⟩ session).run Faulty.answer s
    FailsCleanly Faulty.answer Faulty.mailboxes ∧
      run.1.2 = [.tagged ⟨"a2", .no, none, "CREATE", .processingFailed⟩] ∧
      ⟨"ann", "Work"⟩ ∉ s.mailboxes ∧ ⟨"ann", "Work"⟩ ∈ run.2.1.mailboxes := by
  refine ⟨Faulty.failsCleanly, by decide +kernel, ?_, ?_⟩
  · show ¬ _ = true
    decide +kernel
  · show _ = true
    decide +kernel

end Command

end MailServer.Imap
