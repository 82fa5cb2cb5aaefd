import MailServer.Proofs.Command
import MailServer.Proofs.Name
import MailServer.Proofs.Request
import MailServer.Proofs.StoreRun

/-!
# What can happen to a server

Requests, commands and deliveries, of any users and in any order, on one store and one registry.
The tokens, the store and the sessions share their delimiter.

* `Event`, `run` — what happens, and what it leaves.
* `run_keeps` — what every call and every delivery keeps, every run keeps.
* `sound_run`, `messagesAt_run` — the invariant of the store and the counters of the mailboxes.
* `named_run` — all mailboxes have canonical names, whichever way they came into being. Unlike the
  invariant of the store this does not hold of arbitrary calls; it is followed through the scripts.
-/

namespace MailServer.World

open Account (defaultMailboxes)
open Mailbox (Canonical Path Store)
open Service (Backend)
open Service.Backend

/-! ## Events -/

/-- Something that happens to a server. A command comes from a session of the user, in which any
mailbox may be selected. -/
inductive Event where
  | request (r : Http.Request)
  | command (user : String) (selected : Option Imap.Selection) (c : Imap.Command)
  | deliver (path : Path)

variable (tokens : Http.Tokens)

/-- The state after an event. -/
def step (b : Backend) : Event → Backend
  | .request r => (outcome ((Jmap.stages tokens .mailboxMethods).handler r) b).2
  | .command user selected c => (outcome (c.process ⟨⟨user, tokens.delimiter⟩, selected⟩) b).2
  | .deliver p => { b with store := (b.store.deliver p).2 }

/-- The state after events, one after the other. -/
def run (events : List Event) (b : Backend) : Backend := events.foldl (step tokens) b

/-! ## What every event keeps -/

section Keeps

variable {tokens} {P : Backend → Prop} (hcall : ∀ c b, P b → P (b.answer c).2)
variable (hdeliver : ∀ p b, P b → P { b with store := (b.store.deliver p).2 })
include hcall hdeliver

theorem step_keeps {b : Backend} (h : P b) (e : Event) : P (step tokens b e) := by
  cases e with
  | request r => exact outcome_keeps hcall _ h
  | command user selected c => exact outcome_keeps hcall _ h
  | deliver p => exact hdeliver p b h

theorem run_keeps {b : Backend} (h : P b) (events : List Event) : P (run tokens events b) := by
  induction events generalizing b with
  | nil => exact h
  | cons e events ih => exact ih (step_keeps hcall hdeliver h e)

end Keeps

/-- A call that changes the store is a creation. -/
theorem store_answer (c : Service.Call) (b : Backend) :
    (b.answer c).2.store = b.store ∨ ∃ p, (b.answer c).2.store = (b.store.create p).2 := by
  cases c with
  | createMailbox p => exact Or.inr ⟨p, rfl⟩
  | mailboxExists p => exact Or.inl rfl
  | status p => exact Or.inl rfl
  | listMailboxes user => exact Or.inl rfl
  | containsUser user => exact Or.inl rfl
  | addUser user => exact Or.inl rfl

theorem sound_answer {b : Backend} (h : Store.Sound b.store) (c : Service.Call) :
    Store.Sound (b.answer c).2.store := by
  rcases store_answer c b with hc | ⟨p, hc⟩
  · rwa [hc]
  · rw [hc]
    exact h.create p

theorem sound_run {b : Backend} (h : Store.Sound b.store) (events : List Event) :
    Store.Sound (run tokens events b).store :=
  run_keeps (P := fun b => Store.Sound b.store) (fun c _ hb => sound_answer hb c)
    (fun p _ hb => hb.deliver p) h events

/-! ## Counting deliveries -/

/-- One for a delivery to `p` that succeeds, else zero. -/
def receipt (p : Path) (b : Backend) : Event → Nat
  | .deliver q => Store.receipt p b.store (.deliver q)
  | _ => 0

/-- How many deliveries to `p` succeed in a run that begins in `b`. -/
def received (p : Path) : List Event → Backend → Nat
  | [], _ => 0
  | e :: events, b => receipt p b e + received p events (step tokens b e)

theorem received_le_length (p : Path) (events : List Event) (b : Backend) :
    received tokens p events b ≤ events.length := by
  induction events generalizing b with
  | nil => exact Nat.le_refl 0
  | cons e events ih =>
    have hone : receipt p b e ≤ 1 := by
      cases e with
      | request r => exact Nat.zero_le 1
      | command user selected c => exact Nat.zero_le 1
      | deliver q => exact Store.receipt_le_one p b.store (.deliver q)
    have hrest := ih (step tokens b e)
    rw [received, List.length_cons]
    omega

theorem messagesAt_answer (c : Service.Call) (b : Backend) (p : Path) :
    (b.answer c).2.store.messagesAt p = b.store.messagesAt p := by
  rcases store_answer c b with hc | ⟨q, hc⟩
  · rw [hc]
  · rw [hc, Store.messagesAt_create]

/-- Scripts count no messages. -/
theorem messagesAt_step (b : Backend) (e : Event) (p : Path) :
    (step tokens b e).store.messagesAt p = b.store.messagesAt p + UInt32.ofNat (receipt p b e) := by
  -- no call of a script delivers anything
  have hscript : ∀ {α : Type} (s : Service.Script α),
      (outcome s b).2.store.messagesAt p = b.store.messagesAt p + UInt32.ofNat 0 := by
    intro α s
    rw [show UInt32.ofNat 0 = 0 from rfl, UInt32.add_zero]
    exact outcome_keeps (P := fun after => after.store.messagesAt p = b.store.messagesAt p)
      (fun c after h => (messagesAt_answer c after p).trans h) s rfl
  cases e with
  | request r => exact hscript _
  | command user selected c => exact hscript _
  | deliver q => exact Store.messagesAt_apply b.store (.deliver q) p

/-- The counter of a mailbox after a run, modulo `2 ^ 32`. Induction on the events. -/
theorem messagesAt_run (events : List Event) (b : Backend) (p : Path) :
    (run tokens events b).store.messagesAt p =
      b.store.messagesAt p + UInt32.ofNat (received tokens p events b) := by
  induction events generalizing b with
  | nil => exact (UInt32.add_zero _).symm
  | cons e events ih =>
    have hrun : run tokens (e :: events) b = run tokens events (step tokens b e) := rfl
    rw [hrun, ih, messagesAt_step, received, UInt32.ofNat_add, UInt32.add_assoc]

/-! ## Names -/

/-- All mailboxes of a store have canonical names under its delimiter. -/
structure Named (d : Char) (s : Store) : Prop where
  delimiter : s.delimiter = d
  canonical : ∀ p, s.contains p = true → Canonical d p.name.toList

section Named

variable {d : Char} {s : Store}

theorem Named.empty (limit : Nat) (d : Char) : Named d (Store.empty limit d) where
  delimiter := rfl
  canonical _ h := by cases h

/-- A mailbox with a canonical name comes with ancestors that have canonical names. -/
theorem Named.create (h : Named d s) {p : Path} (hp : Canonical d p.name.toList) :
    Named d (s.create p).2 := by
  rcases Store.create_cases s p with ⟨-, hc⟩ | ⟨-, -, hc⟩ | ⟨-, hnew, hc⟩
  · rwa [hc]
  · rwa [hc]
  · rw [hc]
    refine ⟨(Store.keeps_grown hnew).delimiter.trans h.delimiter, ?_⟩
    intro q hq
    rw [Store.contains_grown, h.delimiter] at hq
    rcases hq with rfl | hancestor | hq
    · exact hp
    · exact hp.ancestor hancestor
    · exact h.canonical q hq

theorem Named.deliver (h : Named d s) (p : Path) : Named d (s.deliver p).2 where
  delimiter := (Store.keeps_deliver s p).delimiter.trans h.delimiter
  canonical q hq := by
    rw [Store.contains_deliver] at hq
    exact h.canonical q hq

/-- A default name without the delimiter is canonical. -/
theorem canonical_default {name : String} (hname : name ∈ defaultMailboxes)
    (hd : d ∉ name.toList) : Canonical d name.toList := by
  have hall : ∀ name ∈ defaultMailboxes, name.toList ≠ [] ∧ name.toList.head? ≠ some '#' ∧
      (Text.sameFolded (String.ofList name.toList) Mailbox.inbox = true →
        name.toList = Mailbox.inbox.toList) := by decide
  obtain ⟨hnonempty, hunmarked, hinbox⟩ := hall name hname
  have hpieces := Text.pieces_of_not_mem hd
  refine ⟨?_, hunmarked, ?_⟩
  · intro c hc
    rw [hpieces, List.mem_singleton] at hc
    exact hc ▸ hnonempty
  · intro c hc hsame
    rw [hpieces] at hc
    cases hc
    exact hinbox hsame

end Named

/-! ### Through the scripts -/

/-- INBOX is a default name. -/
theorem not_mem_inbox {d : Char} (hd : ∀ name ∈ defaultMailboxes, d ∉ name.toList) :
    d ∉ Mailbox.inbox.toList := hd "INBOX" List.mem_cons_self

section Scripts

variable {caller : Caller} (hd : ∀ name ∈ defaultMailboxes, caller.delimiter ∉ name.toList)
include hd

theorem named_provisionAll {names : List String} (hnames : ∀ name ∈ names, name ∈ defaultMailboxes)
    {b : Backend} (h : Named caller.delimiter b.store) :
    Named caller.delimiter
      (attempt (names.forM (Account.provisionMailbox caller)) b).2.store := by
  induction names generalizing b with
  | nil => exact h
  | cons name names ih =>
    have hname := hnames name List.mem_cons_self
    have hcreated := h.create (p := ⟨caller.user, name⟩) (canonical_default hname (hd name hname))
    have hfirst := Account.provisionMailbox_outcome caller name b
    rw [forM_cons]
    split at hfirst
    · rw [attempt_bind_ok hfirst]
      exact ih (fun name hname => hnames name (List.mem_cons_of_mem _ hname)) hcreated
    · rw [attempt_bind_error hfirst]
      exact hcreated

theorem named_provision {b : Backend} (h : Named caller.delimiter b.store) :
    Named caller.delimiter (attempt (Account.provision caller) b).2.store := by
  rw [Account.attempt_provision]
  exact named_provisionAll hd (fun _ hname => hname) h

/-- A creation asks for a child of a listed mailbox, under a single component, or for a name that
has been resolved. -/
theorem canonical_creationPath {existing : List Mailbox.Listing} {c : Jmap.Creation} {p : Path}
    (hexisting : ∀ m ∈ existing, Canonical caller.delimiter m.path.name.toList)
    (h : Jmap.creationPath caller existing c = .ok p) :
    Canonical caller.delimiter p.name.toList := by
  unfold Jmap.creationPath at h
  split at h
  · cases h
  · rename_i hleaf
    simp only [Bool.or_eq_true, not_or, String.isEmpty_iff, List.contains_iff_mem] at hleaf
    cases hparent : c.parentId with
    | none =>
      rw [hparent] at h
      dsimp only at h
      cases hresolve : Mailbox.resolve caller c.name with
      | error e =>
        rw [hresolve] at h
        cases h
      | ok path =>
        rw [hresolve] at h
        cases h
        exact Mailbox.canonical_of_resolve (not_mem_inbox hd) hresolve
    | some id =>
      rw [hparent] at h
      dsimp only at h
      split at h
      · rename_i parent hfind
        cases h
        refine (hexisting parent (List.mem_of_find?_eq_some hfind)).child ?_ hleaf.2
        simpa using hleaf.1
      · cases h

theorem named_outcomesIn {existing : List Mailbox.Listing}
    (hexisting : ∀ m ∈ existing, Canonical caller.delimiter m.path.name.toList)
    (creations : List (String × Jmap.Creation)) {s : Store} (h : Named caller.delimiter s) :
    Named caller.delimiter (Jmap.outcomesIn caller existing creations s).2 := by
  induction creations generalizing s with
  | nil => exact h
  | cons c creations ih =>
    obtain ⟨id, c⟩ := c
    have hfirst : Named caller.delimiter (Jmap.outcomeIn caller existing c s).2 := by
      unfold Jmap.outcomeIn
      split
      · exact h
      · rename_i path hpath
        exact h.create (canonical_creationPath hd hexisting hpath)
    exact ih hfirst

theorem named_execute (i : Jmap.Invocation) {b : Backend} (h : Named caller.delimiter b.store) :
    Named caller.delimiter (outcome (Jmap.Methods.mailboxMethods.execute i caller) b).2.store := by
  rw [Jmap.outcome_execute, Jmap.outcome_call]
  rcases Jmap.find?_mailboxMethods i.method with hfind | hfind | hfind
  · rw [hfind]
    dsimp only
    rw [Jmap.process_setMailboxes]
    cases Jmap.argumentsOf Jmap.creationArguments i.arguments with
    | error e => exact h
    | ok creations =>
      -- the parents are looked for among the mailboxes of the user, whose names are canonical
      refine named_outcomesIn hd ?_ creations h
      intro m hm
      unfold Jmap.parentsIn at hm
      split at hm
      · exact h.canonical _ (Store.contains_of_mem_list hm)
      · exact absurd hm List.not_mem_nil
  · rw [hfind]
    dsimp only
    rw [Jmap.process_getMailboxes]
    exact h
  · rw [hfind]
    exact h

theorem named_dispatched (batch : List Jmap.Invocation) {b : Backend}
    (h : Named caller.delimiter b.store) :
    Named caller.delimiter (Jmap.dispatched caller batch b).2.store := by
  induction batch generalizing b with
  | nil => exact h
  | cons i batch ih =>
    rw [Jmap.dispatched, Jmap.outcome_dispatch_cons]
    exact ih (named_execute hd i h)

theorem named_carried (batch : List Jmap.Invocation) {b : Backend}
    (h : Named caller.delimiter b.store) :
    Named caller.delimiter (Jmap.carried caller batch b).2.store := by
  have hprovisioned := named_provision hd h
  cases hprovision : attempt (Account.provision caller) b with
  | mk result between =>
    rw [hprovision] at hprovisioned
    cases result with
    | error e =>
      rw [Jmap.carried_of_provision_error hprovision]
      exact hprovisioned
    | ok u =>
      rw [Jmap.carried_of_provision hprovision]
      exact named_dispatched hd batch hprovisioned

end Scripts

/-! ### Through the events -/

/-- A request that carries a batch leaves what that leaves; any other changes nothing. -/
theorem step_request_cases (r : Http.Request) (b : Backend) :
    (∃ caller batch, caller.delimiter = tokens.delimiter ∧
      step tokens b (.request r) = (Jmap.carried caller batch b).2) ∨
    step tokens b (.request r) = b := by
  cases hcaller : tokens.authenticate r with
  | error e => exact Or.inr (Jmap.state_of_unauthenticated hcaller b)
  | ok caller =>
    cases hbatch : Jmap.Batch.parse r.body with
    | error e => exact Or.inr (Jmap.state_of_undecoded hcaller hbatch b)
    | ok batch =>
      refine Or.inl ⟨caller, batch, Http.Tokens.delimiter_of_authenticate hcaller, ?_⟩
      rw [step, Jmap.outcome_request hcaller hbatch]

section Events

variable {tokens} (hd : ∀ name ∈ defaultMailboxes, tokens.delimiter ∉ name.toList)
include hd

theorem named_step (e : Event) {b : Backend} (h : Named tokens.delimiter b.store) :
    Named tokens.delimiter (step tokens b e).store := by
  cases e with
  | request r =>
    rcases step_request_cases tokens r b with ⟨caller, batch, hcaller, hstep⟩ | hstep
    · rw [hstep, ← hcaller]
      rw [← hcaller] at hd h
      exact named_carried hd batch h
    · rwa [hstep]
  | command user selected c =>
    rcases c.process_state ⟨⟨user, tokens.delimiter⟩, selected⟩ b with hstep | ⟨p, hresolve, hstep⟩
    · rwa [step, hstep]
    · rw [step, hstep]
      exact h.create (Mailbox.canonical_of_resolve (not_mem_inbox hd) hresolve)
  | deliver p => exact h.deliver p

/-- **Names are canonical** in every state that can be reached. Induction on the events. -/
theorem named_run (events : List Event) {b : Backend} (h : Named tokens.delimiter b.store) :
    Named tokens.delimiter (run tokens events b).store := by
  induction events generalizing b with
  | nil => exact h
  | cons e events ih => exact ih (named_step hd e h)

end Events

end MailServer.World
