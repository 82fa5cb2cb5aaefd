import MailServer.Proofs.Command
import MailServer.Proofs.StoreRun

/-!
# One session from its beginning

A client sends commands in a session while others create mailboxes and deliver messages. What the
client knows is what it has been told: the last count on the session since the `SELECT` that chose
the mailbox. The session keeps a count of its own, and the store has the true one.

* `Answered`, `answered` — the ways in which a command is answered, and that there is no other.
* `Turn`, `Dialogue`, `Dialogue.run` — what happens, and what has been said in a session so far.
* `Dialogue.Informed`, `Dialogue.informed_run` — the session's count is what the client was told.
* `Dialogue.command_follows_protocol` — every command after every run.
-/

namespace MailServer.Imap

open Mailbox (Path Store)
open Service (Backend)
open Service.Backend

/-! ## Looking at the selected mailbox -/

theorem exists_status {store : Store} {p : Path} (h : store.contains p = true) :
    ∃ status, store.status p = .ok status := by
  obtain ⟨e, he⟩ := Store.contains_iff.mp h
  exact ⟨⟨e.messages, e.uidNext, e.id.number⟩, by rw [Store.status, he]⟩

theorem contains_of_status {store : Store} {p : Path} {status : Mailbox.Status}
    (h : store.status p = .ok status) : store.contains p = true := by
  rw [Store.contains]
  cases he : store.entryAt? p with
  | none =>
    rw [Store.status, he] at h
    cases h
  | some e => rfl

namespace Session

/-- The selected mailbox, if any, is there. -/
def Open (s : Session) (store : Store) : Prop :=
  ∀ selection, s.selected = some selection → store.contains selection.path = true

/-- A look at the selected mailbox: the session after it, and what the client is told. -/
inductive Polled (s : Session) (store : Store) : Session → List Response → Prop
  | none (hselected : s.selected = none) : Polled s store s []
  | known {selection : Selection} {status : Mailbox.Status} (hselected : s.selected = some selection)
      (hstatus : store.status selection.path = .ok status)
      (hknown : status.messages = selection.known) : Polled s store s []
  | told {selection : Selection} {status : Mailbox.Status} (hselected : s.selected = some selection)
      (hstatus : store.status selection.path = .ok status)
      (hnews : status.messages ≠ selection.known) :
      Polled s store (s.select selection.path status.messages) [.messages status.messages]

theorem attempt_poll {s : Session} {b : Backend} (h : s.Open b.store) :
    ∃ polled news, attempt s.poll b = (.ok (polled, news), b) ∧ s.Polled b.store polled news := by
  unfold poll
  cases hselected : s.selected with
  | none => exact ⟨s, [], rfl, .none hselected⟩
  | some selection =>
    obtain ⟨status, hstatus⟩ := exists_status (h selection hselected)
    have hasked : attempt (ExceptT.mk (Service.ask (.status selection.path))) b = (.ok status, b) := by
      rw [attempt_mk, outcome_ask, Backend.answer, hstatus]
    dsimp only
    rw [attempt_bind_ok hasked]
    by_cases hknown : status.messages = selection.known
    · rw [if_pos hknown]
      exact ⟨s, [], rfl, .known hselected hstatus hknown⟩
    · rw [if_neg hknown]
      exact ⟨_, _, rfl, .told hselected hstatus hknown⟩

end Session

/-! ## The ways of a command -/

/-- The ways of a command in a session `s` on the state `b`: the session after it, the untagged lines,
the tagged one and the state. It is refused; it creates a mailbox and looks at the selected one; or it
selects. -/
inductive Answered (c : Command) (s : Session) (b : Backend) :
    Session → List Response → Tagged → Backend → Prop
  | refused {line : Tagged} (htag : line.tag = c.tag) (hstatus : line.status ≠ .ok) :
      Answered c s b (c.sessionAfterFailure s) [] line b
  | created {path : Path} {polled : Session} {news : List Response} (hverb : c.verb = .create)
      (hpolled : s.Polled (b.store.create path).2 polled news) :
      Answered c s b polled news (.completed c.tag c.verb.name none)
        { b with store := (b.store.create path).2 }
  | selected {path : Path} {status : Mailbox.Status} (hverb : c.verb = .select)
      (hresolve : Mailbox.resolve s.caller c.mailbox = .ok path)
      (hstatus : b.store.status path = .ok status) :
      Answered c s b (s.select path status.messages) (openingLines status)
        (.completed c.tag c.verb.name (some .readWrite)) b

/-- A creation that fails leaves the store as it was. -/
theorem create_of_error {store : Store} {p : Path} {e : Mailbox.Error}
    (h : (store.create p).1 = .error e) : (store.create p).2 = store := by
  rcases Store.create_cases store p with ⟨-, hc⟩ | ⟨-, -, hc⟩ | ⟨-, -, hc⟩
  · rw [hc]
  · rw [hc]
  · rw [hc] at h
    cases h

/-- A `CREATE` fails and changes nothing, or it leaves what the creation of a path leaves. -/
theorem attempt_create_cases {c : Command} {s : Session} {b : Backend} (h : s.Open b.store) :
    (∃ e, attempt (c.create s) b = (.error e, b)) ∨
    ∃ path polled news, s.Polled (b.store.create path).2 polled news ∧
      attempt (c.create s) b =
        (.ok (polled, news ++ [c.completed none]), { b with store := (b.store.create path).2 }) := by
  unfold Command.create
  rw [attempt_bind, attempt_liftExcept]
  cases Mailbox.resolve s.caller c.mailbox with
  | error e => exact Or.inl ⟨e, rfl⟩
  | ok path =>
    dsimp only
    rw [attempt_bind, attempt_mk, outcome_ask]
    dsimp only [Backend.answer]
    cases hcreate : (b.store.create path).1 with
    | error e =>
      rw [create_of_error hcreate]
      exact Or.inl ⟨e, rfl⟩
    | ok id =>
      -- the selected mailbox is still there for the look behind the creation
      have hopen : s.Open (b.store.create path).2 := fun selection hselected =>
        (Store.keeps_create b.store path).contains (h selection hselected)
      obtain ⟨polled, news, hpoll, hpolled⟩ :=
        Session.attempt_poll (b := { b with store := (b.store.create path).2 }) hopen
      dsimp only
      rw [attempt_bind_ok hpoll]
      exact Or.inr ⟨path, polled, news, hpolled, rfl⟩

theorem answered (c : Command) {s : Session} {b : Backend} (h : s.Open b.store) :
    ∃ after news line state, outcome (c.process s) b = ((after, news ++ [.tagged line]), state) ∧
      Answered c s b after news line state := by
  rw [Command.outcome_process]
  cases hverb : c.verb with
  | create =>
    have hattempt : c.attempt s = c.create s := by rw [Command.attempt, hverb]
    rw [hattempt]
    rcases attempt_create_cases (c := c) h with ⟨e, he⟩ | ⟨path, polled, news, hpolled, hok⟩
    · rw [he]
      exact ⟨_, [], _, _, rfl, .refused rfl (status_of_rules .create e c.context)⟩
    · rw [hok]
      exact ⟨_, _, _, _, rfl, .created hverb hpolled⟩
  | select =>
    have hattempt : c.attempt s = c.select s := by rw [Command.attempt, hverb]
    rw [hattempt, Command.attempt_select]
    cases hresolve : Mailbox.resolve s.caller c.mailbox with
    | error e => exact ⟨_, [], _, _, rfl, .refused rfl (status_of_rules .select e c.context)⟩
    | ok path =>
      dsimp only
      cases hstatus : b.store.status path with
      | error e => exact ⟨_, [], _, _, rfl, .refused rfl (status_of_rules .select e c.context)⟩
      | ok status => exact ⟨_, _, _, _, rfl, .selected hverb hresolve hstatus⟩

/-! ## What has been said -/

/-- A command with the lines that answered it. -/
structure Exchange where
  command : Command
  lines : List Response
deriving DecidableEq, Repr

/-- The counts that lines tell, in their order. -/
def counts (lines : List Response) : List UInt32 :=
  lines.filterMap fun
    | .messages count => some count
    | _ => none

/-- The command is a `SELECT` that was answered with OK. -/
def Exchange.opens (e : Exchange) : Bool :=
  e.command.verb = .select ∧ (e.lines.filterMap Response.tagged?).any (·.status = .ok)

/-- The last count told since the last `SELECT` answered with OK, its own lines included. What has
been said is given latest first. -/
def lastTold : List Exchange → Option UInt32
  | [] => none
  | e :: earlier =>
    match (counts e.lines).getLast? with
    | some count => some count
    | none => if e.opens then none else lastTold earlier

/-- Something that happens while the session lasts: a command in it, or a change by others. -/
inductive Turn where
  | command (c : Command)
  | other (op : Store.Operation)

/-- A session with the mailboxes behind it and what has been said in it, latest first. -/
structure Dialogue where
  session : Session
  backend : Backend
  said : List Exchange

namespace Dialogue

/-- A session in which nothing has been said. -/
def start (caller : Caller) (b : Backend) : Dialogue := ⟨.start caller, b, []⟩

/-- The dialogue after something has happened. -/
def step (d : Dialogue) : Turn → Dialogue
  | .command c =>
    let ((session, lines), backend) := outcome (c.process d.session) d.backend
    ⟨session, backend, ⟨c, lines⟩ :: d.said⟩
  | .other op => { d with backend := { d.backend with store := d.backend.store.apply op } }

/-- The dialogue after turns, one after the other. -/
def run (turns : List Turn) (d : Dialogue) : Dialogue := turns.foldl step d

end Dialogue

/-! ### What an answer says -/

theorem counts_answer (news : List Response) (line : Tagged) :
    counts (news ++ [.tagged line]) = counts news := by
  rw [counts, List.filterMap_append]
  exact List.append_nil _

namespace Answered

variable {c : Command} {s after : Session} {b state : Backend} {news : List Response} {line : Tagged}

theorem untagged (h : Answered c s b after news line state) :
    news.filterMap Response.tagged? = [] := by
  cases h with
  | refused => rfl
  | created _ hpolled => cases hpolled <;> rfl
  | selected => rfl

theorem tag (h : Answered c s b after news line state) : line.tag = c.tag := by
  cases h with
  | refused htag => exact htag
  | created => rfl
  | selected => rfl

theorem keeps (h : Answered c s b after news line state) : Store.Keeps b.store state.store := by
  cases h with
  | refused => exact Store.Keeps.refl _
  | created => exact Store.keeps_create _ _
  | selected => exact Store.Keeps.refl _

/-- The exchange is one that opens a mailbox where it is a `SELECT` that ends in OK. -/
theorem opens_iff (h : Answered c s b after news line state) :
    Exchange.opens ⟨c, news ++ [.tagged line]⟩ = true ↔ c.verb = .select ∧ line.status = .ok := by
  rw [Exchange.opens, List.filterMap_append, h.untagged]
  simp [Response.tagged?]

/-- A command that is not answered with OK tells nothing and creates nothing. -/
theorem of_refused (h : Answered c s b after news line state) (hstatus : line.status ≠ .ok) :
    news = [] ∧ state = b ∧ after = c.sessionAfterFailure s := by
  cases h with
  | refused => exact ⟨rfl, rfl, rfl⟩
  | created => exact absurd rfl hstatus
  | selected => exact absurd rfl hstatus

/-- After an answer of OK the session knows the count of the selected mailbox. -/
theorem of_ok (h : Answered c s b after news line state) (hok : line.status = .ok)
    {selection : Selection} (hselected : after.selected = some selection) :
    ∃ status, state.store.status selection.path = .ok status ∧ status.messages = selection.known := by
  cases h with
  | refused _ hstatus => exact absurd hok hstatus
  | created _ hpolled =>
    cases hpolled with
    | none hnone =>
      rw [hnone] at hselected
      cases hselected
    | @known selection' status hselected' hstatus hknown =>
      cases hselected'.symm.trans hselected
      exact ⟨status, hstatus, hknown⟩
    | @told selection' status hselected' hstatus hnews =>
      cases hselected
      exact ⟨status, hstatus, rfl⟩
  | @selected path status _ _ hstatus =>
    cases hselected
    exact ⟨status, hstatus, rfl⟩

/-- A `CREATE` that is carried out keeps the mailbox selected, and tells its count if it is not the
one known. -/
theorem of_created (h : Answered c s b after news line state) (hok : line.status = .ok)
    (hverb : c.verb = .create) : s.Polled state.store after news := by
  cases h with
  | refused _ hstatus => exact absurd hok hstatus
  | created _ hpolled => exact hpolled
  | selected hselect => exact nomatch hverb.symm.trans hselect

end Answered

/-! ## What every turn keeps -/

namespace Dialogue

variable {d : Dialogue}

/-- The client has been told what the session keeps: a selected mailbox is there, the last `SELECT`
answered with OK chose it, and the last count told since then is the session's. -/
def Informed (d : Dialogue) : Prop :=
  ∀ selection, d.session.selected = some selection →
    d.backend.store.contains selection.path = true ∧
    lastTold d.said = some selection.known ∧
    ∃ e, d.said.find? Exchange.opens = some e ∧
      Mailbox.resolve d.session.caller e.command.mailbox = .ok selection.path

theorem Informed.isOpen (h : d.Informed) : d.session.Open d.backend.store :=
  fun selection hselected => (h selection hselected).1

/-- A dialogue goes on along one of the ways of its command. -/
theorem step_command (h : d.Informed) (c : Command) :
    ∃ after news line state, Answered c d.session d.backend after news line state ∧
      d.step (.command c) = ⟨after, state, ⟨c, news ++ [.tagged line]⟩ :: d.said⟩ := by
  obtain ⟨after, news, line, state, houtcome, hway⟩ := answered c h.isOpen
  exact ⟨after, news, line, state, hway, by rw [step, houtcome]⟩

theorem informed_start (caller : Caller) (b : Backend) : (start caller b).Informed := by
  intro selection hselected
  cases hselected

/-- An exchange that opens no mailbox keeps the selection informed, if it keeps the mailbox and tells
its count where that is new. -/
theorem Informed.cons {selection : Selection} {e : Exchange} {after : Session} {state : Backend}
    {known : UInt32} (h : d.Informed) (hselected : d.session.selected = some selection)
    (hafter : after.selected = some ⟨selection.path, known⟩) (hcaller : after.caller = d.session.caller)
    (hkeeps : Store.Keeps d.backend.store state.store) (hopens : ¬ e.opens = true)
    (htold : (counts e.lines).getLast? = some known ∨ counts e.lines = [] ∧ known = selection.known) :
    Informed ⟨after, state, e :: d.said⟩ := by
  intro selection' hselected'
  cases hafter.symm.trans hselected'
  obtain ⟨hthere, hlast, chosen, hfind, hresolve⟩ := h selection hselected
  refine ⟨hkeeps.contains hthere, ?_, chosen, ?_, ?_⟩
  · show lastTold (e :: d.said) = some known
    rw [lastTold]
    rcases htold with hcount | ⟨hnone, rfl⟩
    · rw [hcount]
    · rw [hnone, if_neg hopens]
      exact hlast
  · rw [List.find?_cons_of_neg hopens]
    exact hfind
  · rw [hcaller]
    exact hresolve

theorem informed_command (h : d.Informed) (c : Command) : (d.step (.command c)).Informed := by
  obtain ⟨after, news, line, state, hway, hstep⟩ := step_command h c
  have hopens := hway.opens_iff
  have hcounts := counts_answer news line
  have hkeeps := hway.keeps
  rw [hstep]
  cases hway with
  | refused htag hstatus =>
    have hnot : ¬ Exchange.opens ⟨c, [.tagged line]⟩ = true := fun h => hstatus (hopens.mp h).2
    intro selection hselected
    -- a failed SELECT leaves nothing selected
    cases hverb : c.verb with
    | select =>
      rw [Command.sessionAfterFailure, hverb] at hselected
      cases hselected
    | create =>
      have hsame : c.sessionAfterFailure d.session = d.session := by
        rw [Command.sessionAfterFailure, hverb]
      rw [hsame] at hselected ⊢
      exact h.cons hselected hselected rfl hkeeps hnot (Or.inr ⟨hcounts, rfl⟩) selection hselected
  | @created path _ _ hverb hpolled =>
    have hnot : ¬ Exchange.opens ⟨c, news ++ [.tagged (.completed c.tag c.verb.name none)]⟩ = true := by
      rw [hopens, hverb]
      exact fun h => nomatch h.1
    cases hpolled with
    | none hnone =>
      intro selection hselected
      rw [hnone] at hselected
      cases hselected
    | known hselected _ _ =>
      exact h.cons hselected hselected rfl hkeeps hnot (Or.inr ⟨hcounts, rfl⟩)
    | told hselected _ _ =>
      exact h.cons hselected rfl rfl hkeeps hnot (Or.inl (by rw [hcounts]; rfl))
  | @selected path status hverb hresolve hstatus =>
    rintro selection ⟨⟩
    refine ⟨contains_of_status hstatus, ?_, _, List.find?_cons_of_pos (hopens.mpr ⟨hverb, rfl⟩), hresolve⟩
    show lastTold (_ :: d.said) = some status.messages
    rw [lastTold, hcounts]
    rfl

theorem informed_step (h : d.Informed) (turn : Turn) : (d.step turn).Informed := by
  cases turn with
  | command c => exact informed_command h c
  | other op =>
    -- mailboxes do not go away, and nothing is said
    intro selection hselected
    obtain ⟨hthere, hsaid⟩ := h selection hselected
    exact ⟨(Store.keeps_apply _ op).contains hthere, hsaid⟩

/-- Whatever happens, the client is informed. Induction on the turns. -/
theorem informed_run (h : d.Informed) (turns : List Turn) : (d.run turns).Informed := by
  induction turns generalizing d with
  | nil => exact h
  | cons turn turns ih => exact ih (informed_step h turn)

/-! ## Every command of a run -/

/-- To a client that is informed a `CREATE` tells a count where it is not the last one told. -/
theorem Informed.told_iff (h : d.Informed) {store : Store} {after : Session} {news : List Response}
    (hpolled : d.session.Polled store after news) (count : UInt32) :
    .messages count ∈ news ↔ ∃ selection status, d.session.selected = some selection ∧
      store.status selection.path = .ok status ∧ status.messages = count ∧
      lastTold d.said ≠ some count := by
  cases hpolled with
  | none hnone => simp [hnone]
  | @known selection status hselected hstatus hknown =>
    obtain ⟨-, hlast, -⟩ := h selection hselected
    refine iff_of_false List.not_mem_nil ?_
    rintro ⟨selection', status', hselected', hstatus', rfl, hnew⟩
    cases hselected.symm.trans hselected'
    cases hstatus.symm.trans hstatus'
    exact hnew (hlast.trans (congrArg some hknown.symm))
  | @told selection status hselected hstatus hnews =>
    obtain ⟨-, hlast, -⟩ := h selection hselected
    rw [List.mem_singleton]
    constructor
    · rintro ⟨⟩
      refine ⟨selection, status, hselected, hstatus, rfl, fun hsame => hnews ?_⟩
      exact (Option.some.inj (hlast.symm.trans hsame)).symm
    · rintro ⟨selection', status', hselected', hstatus', rfl, -⟩
      cases hselected.symm.trans hselected'
      cases hstatus.symm.trans hstatus'
      rfl

/-- **The protocol of a session.** Take any state, a session that begins there with nothing selected,
any commands in it and anything that others create and deliver in between; then one more command. It
is answered by untagged lines and one tagged line under its own tag, which is alone unless it is OK.
If a mailbox is selected now, it is there, it is what the last `SELECT` answered with OK has named, and
the session's count is the last one told since; after an answer of OK this is the count in the store.
A `CREATE` answered with OK tells a count where that is the count of the selected mailbox and not the
last one told. A failed `SELECT` leaves nothing selected, and a failed `CREATE` the session as it was. -/
theorem command_follows_protocol (caller : Caller) (b : Backend) (turns : List Turn) (c : Command) :
    let before := (start caller b).run turns
    let after := before.step (.command c)
    ∃ news line, after.said = ⟨c, news ++ [.tagged line]⟩ :: before.said ∧
      news.filterMap Response.tagged? = [] ∧ line.tag = c.tag ∧ (line.status ≠ .ok → news = []) ∧
      after.Informed ∧
      (line.status = .ok → ∀ selection, after.session.selected = some selection →
        ∃ status, after.backend.store.status selection.path = .ok status ∧
          status.messages = selection.known) ∧
      (line.status = .ok → c.verb = .create → ∀ count, .messages count ∈ news ↔
        ∃ selection status, before.session.selected = some selection ∧
          after.backend.store.status selection.path = .ok status ∧ status.messages = count ∧
          lastTold before.said ≠ some count) ∧
      (line.status ≠ .ok → c.verb = .select → after.session.selected = none) ∧
      (line.status ≠ .ok → c.verb = .create → after.session = before.session) := by
  intro before after
  have hbefore : before.Informed := informed_run (informed_start caller b) turns
  have hafter : after.Informed := informed_command hbefore c
  obtain ⟨session, news, line, state, hway, hstep⟩ := step_command hbefore c
  rw [show after = _ from hstep] at hafter ⊢
  refine ⟨news, line, rfl, hway.untagged, hway.tag, fun hno => (hway.of_refused hno).1, hafter,
    fun hok _ => hway.of_ok hok, fun hok hverb => hbefore.told_iff (hway.of_created hok hverb), ?_, ?_⟩
  · intro hno hverb
    rw [(hway.of_refused hno).2.2, Command.sessionAfterFailure, hverb]
    rfl
  · intro hno hverb
    rw [(hway.of_refused hno).2.2, Command.sessionAfterFailure, hverb]

/-- A message arrives between a `SELECT` and a `CREATE`, which tells of it. -/
example :
    let turns : List Turn := [.other (.create ⟨"ann", "Work"⟩), .command ⟨"a1", .select, "Work"⟩,
      .other (.deliver ⟨"ann", "Work"⟩), .command ⟨"a2", .create, "Plans"⟩]
    ((start ⟨"ann", '.'⟩ (.empty 255 '.')).run turns).said.head? =
      some ⟨⟨"a2", .create, "Plans"⟩, [.messages 1, .tagged (.completed "a2" "CREATE" none)]⟩ := by
  decide +kernel

end Dialogue

end MailServer.Imap
