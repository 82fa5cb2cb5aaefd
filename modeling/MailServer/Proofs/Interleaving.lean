import Mathlib.Data.Bool.Basic
import Mathlib.Logic.Function.Basic
import MailServer.Proofs.Expected
import MailServer.Proofs.Numbering
import MailServer.Proofs.World

/-!
# Scripts that run together

Several scripts share one store and one registry. They are carried out a move at a time, and between two
moves of one of them any others may make theirs. So a script never sees more of the others than the
replies to its own calls: what holds of it whatever the replies are, holds of it in every interleaving.
What a reply says of the store stays true on the other hand, as mailboxes are never taken away.

* `Move`, `Script.move?` — a call with its reply or a note, and the next one of a script.
* `Joint`, `Joint.run` — scripts with their server, under a schedule.
* `Script.Traces` — what holds of the moves of a script at all times and of its result at the end, and the
  rules for scripts one after the other. `Joint.traces_run` takes it to an interleaving.
* `Script.Within` — a script ends after so many moves; `Joint.done_run` — and in an interleaving as well.
* `Joint.Consistent` — what the moves of all tell of the store; `Joint.consistent_run`.
-/

namespace MailServer.Service

open Mailbox (Path Store)

variable {α β ε ι : Type} {limit : Nat}

/-! ## Moves -/

/-- A call with its reply, or a note. -/
inductive Move where
  | called (c : Call) (reply : c.Reply)
  | noted (n : Note)

/-- The move creates the mailbox. -/
def Move.makes (p : Path) : Move → Bool
  | called (.createMailbox q) (.ok _) => q = p
  | _ => false

/-- How many of the moves create the mailbox. -/
def made (p : Path) (moves : List Move) : Nat := moves.countP (·.makes p)

@[simp] theorem made_concat (p : Path) (moves : List Move) (m : Move) :
    made p (moves ++ [m]) = made p moves + if m.makes p then 1 else 0 := by
  rw [made, List.countP_append, List.countP_singleton]
  rfl

theorem made_mono {p : Path} {moves after : List Move} (h : moves <+: after) :
    made p moves ≤ made p after := h.sublist.countP_le

/-- What a reply tells of the store holds in it: a mailbox that was created or listed is there under its
number, and one that was found to exist is there. -/
def Move.Holds (s : Store) : Move → Prop
  | called (.createMailbox p) (.ok id) => ∃ e, s.entryAt? p = some e ∧ e.id = id
  | called (.createMailbox p) (.error (.alreadyExists _)) => s.contains p = true
  | called (.mailboxExists p) (.ok true) => s.contains p = true
  | called (.listMailboxes _) (.ok mailboxes) =>
    ∀ m ∈ mailboxes, ∃ e, s.entryAt? m.path = some e ∧ e.id = m.id
  | _ => True

/-- It goes on to hold as long as mailboxes stay. -/
theorem Move.Holds.keeps {s t : Store} {m : Move} (h : m.Holds s) (hkept : Store.Keeps s t) : m.Holds t := by
  unfold Holds at h ⊢
  split at h
  · obtain ⟨e, he, hid⟩ := h
    obtain ⟨e', he', hid'⟩ := hkept.entry _ e he
    exact ⟨e', he', hid'.trans hid⟩
  · exact hkept.contains h
  · exact hkept.contains h
  · intro m hm
    obtain ⟨e, he, hid⟩ := h m hm
    obtain ⟨e', he', hid'⟩ := hkept.entry _ e he
    exact ⟨e', he', hid'.trans hid⟩
  · trivial

/-- The next move of a script, what is left of the script and the server after the move. A script that is
done makes none. -/
def Script.move? : Script α → Backend → Option (Move × Script α × Backend)
  | .done _, _ => none
  | .call c next, b => some (.called c (b.answer c).1, next (b.answer c).1, (b.answer c).2)
  | .note n next, b => some (.noted n, next, b)

theorem Script.move?_eq_none {x : Script α} {b : Backend} (h : x.move? b = none) : ∃ a, x = .done a := by
  cases x with
  | done a => exact ⟨a, rfl⟩
  | call c next => cases h
  | note n next => cases h

/-! ### What a move does to the server -/

section Server

variable {b : Backend}

/-- A call leaves every entry as it is: the mailbox keeps its number, no messages are counted, and the next
message number follows from those. -/
theorem Backend.entryAt?_answer (h : Store.Sound b.store) (c : Call) {p : Path} {e : Mailbox.Entry}
    (he : b.store.entryAt? p = some e) : (b.answer c).2.store.entryAt? p = some e := by
  obtain ⟨e', he', hid⟩ := (keeps_answer c b).entry p e he
  have hmessages : e'.messages = e.messages := by
    have hsame := World.messagesAt_answer c b p
    rwa [Store.messagesAt, Store.messagesAt, he, he'] at hsame
  have hnext : e'.uidNext = e.uidNext := by
    rw [(World.sound_answer h c).counted p e' he', h.counted p e he, hmessages]
  obtain ⟨id, messages, uidNext⟩ := e
  obtain ⟨id', messages', uidNext'⟩ := e'
  cases hid
  cases hmessages
  cases hnext
  exact he'

theorem Backend.holds_answer (h : Store.Sound b.store) (c : Call) :
    (Move.called c (b.answer c).1).Holds (b.answer c).2.store := by
  cases c with
  | createMailbox p =>
    show (Move.called (.createMailbox p) (b.store.create p).1).Holds (b.store.create p).2
    rcases Store.create_cases b.store p with ⟨-, hc⟩ | ⟨-, hthere, hc⟩ | ⟨-, -, hc⟩
    · rw [hc]
      trivial
    · rw [hc]
      exact hthere
    · rw [hc]
      exact ⟨_, by rw [Store.grown, Store.entryAt?_add, if_pos rfl], rfl⟩
  | mailboxExists p =>
    show (Move.called (.mailboxExists p) (.ok (b.store.contains p))).Holds b.store
    cases hthere : b.store.contains p with
    | true => exact hthere
    | false => trivial
  | listMailboxes user =>
    intro m hm
    obtain ⟨-, e, he, hlisted⟩ := h.mem_list_iff.mp hm
    exact ⟨e, he, (congrArg (·.id) hlisted).symm⟩
  | status p => trivial
  | containsUser user => trivial
  | addUser user => trivial

/-- A mailbox that is created was missing before and is there afterwards. -/
theorem Backend.contains_of_makes {c : Call} {p : Path} (h : (Move.called c (b.answer c).1).makes p = true) :
    b.store.contains p = false ∧ (b.answer c).2.store.contains p = true := by
  cases c with
  | createMailbox q =>
    change (Move.called (.createMailbox q) (b.store.create q).1).makes p = true at h
    show b.store.contains p = false ∧ (b.store.create q).2.contains p = true
    rcases Store.create_cases b.store q with ⟨-, hc⟩ | ⟨-, -, hc⟩ | ⟨-, hnew, hc⟩
    · rw [hc] at h
      cases h
    · rw [hc] at h
      cases h
    · rw [hc] at h ⊢
      obtain rfl : q = p := by simpa [Move.makes] using h
      exact ⟨by simpa using hnew, (Store.contains_grown _ _ _).mpr (Or.inl rfl)⟩
  | mailboxExists q => cases h
  | status q => cases h
  | listMailboxes user => cases h
  | containsUser user => cases h
  | addUser user => cases h

/-- Everything that a move of a script does to a sound store. -/
structure Moved (b : Backend) (m : Move) (after : Backend) : Prop where
  sound : Store.Sound after.store
  keeps : Store.Keeps b.store after.store
  entry : ∀ p e, b.store.entryAt? p = some e → after.store.entryAt? p = some e
  holds : m.Holds after.store
  makes : ∀ p, m.makes p = true → b.store.contains p = false ∧ after.store.contains p = true

theorem Script.moved {x rest : Script α} {after : Backend} {m : Move} (h : Store.Sound b.store)
    (hmove : x.move? b = some (m, rest, after)) : Moved b m after := by
  cases x with
  | done a => cases hmove
  | call c next =>
    cases hmove
    exact ⟨World.sound_answer h c, Backend.keeps_answer c b, fun p e => Backend.entryAt?_answer h c,
      Backend.holds_answer h c, fun p => Backend.contains_of_makes⟩
  | note n next =>
    cases hmove
    exact ⟨h, Store.Keeps.refl _, fun _ _ he => he, trivial, nofun⟩

end Server

/-! ## Scripts with one server -/

/-- Scripts with the server that they share, and the moves made so far with those who made them. -/
structure Joint (ι α : Type) where
  backend : Backend
  rest : ι → Script α
  history : List (ι × Move)

namespace Joint

/-- No script has made a move yet. -/
def start (scripts : ι → Script α) (b : Backend) : Joint ι α := ⟨b, scripts, []⟩

variable [DecidableEq ι]

/-- One of the scripts makes its next move, unless it is done. -/
def step (s : Joint ι α) (i : ι) : Joint ι α :=
  match (s.rest i).move? s.backend with
  | none => s
  | some (m, rest, backend) => ⟨backend, Function.update s.rest i rest, s.history ++ [(i, m)]⟩

/-- The scripts make moves in the order of a schedule. -/
def run (schedule : List ι) (s : Joint ι α) : Joint ι α := schedule.foldl step s

/-- The moves that one script has made. -/
def ownOf (i : ι) (history : List (ι × Move)) : List Move :=
  history.filterMap fun made => if made.1 = i then some made.2 else none

/-- The moves that one of the scripts has made so far. -/
def own (s : Joint ι α) (i : ι) : List Move := ownOf i s.history

theorem mem_ownOf {i : ι} {m : Move} {history : List (ι × Move)} :
    m ∈ ownOf i history ↔ (i, m) ∈ history := by
  unfold ownOf
  rw [List.mem_filterMap]
  constructor
  · rintro ⟨⟨j, m'⟩, hmem, hown⟩
    split at hown
    · rename_i hj
      cases hown
      cases hj
      exact hmem
    · cases hown
  · intro hmem
    exact ⟨(i, m), hmem, if_pos rfl⟩

/-- The moves of two scripts are among those of all. -/
theorem countP_ownOf_add_le {i j : ι} (h : i ≠ j) (f : Move → Bool) (history : List (ι × Move)) :
    (ownOf i history).countP f + (ownOf j history).countP f ≤ history.countP (f ·.2) := by
  induction history with
  | nil => exact Nat.le_refl 0
  | cons made history ih =>
    obtain ⟨k, m⟩ := made
    -- a move is of at most one of the two
    by_cases hi : k = i
    · subst hi
      simp only [ownOf, List.filterMap_cons, if_pos, if_neg h, List.countP_cons] at ih ⊢
      omega
    · by_cases hj : k = j
      · subst hj
        simp only [ownOf, List.filterMap_cons, if_pos, if_neg hi, List.countP_cons] at ih ⊢
        omega
      · simp only [ownOf, List.filterMap_cons, if_neg hi, if_neg hj, List.countP_cons] at ih ⊢
        omega

theorem countP_ownOf_le (i : ι) (f : Move → Bool) (history : List (ι × Move)) :
    (ownOf i history).countP f ≤ history.countP (f ·.2) := by
  rw [ownOf, List.countP_filterMap]
  refine List.countP_mono_left fun made _ h => ?_
  split at h
  · exact h
  · cases h

/-- A script that is done stays as it is, and any other makes its next move. -/
theorem step_cases (s : Joint ι α) (i : ι) :
    ((∃ a, s.rest i = .done a) ∧ s.step i = s) ∨
    ∃ m rest backend, (s.rest i).move? s.backend = some (m, rest, backend) ∧
      s.step i = ⟨backend, Function.update s.rest i rest, s.history ++ [(i, m)]⟩ := by
  unfold step
  cases hmove : (s.rest i).move? s.backend with
  | none => exact Or.inl ⟨Script.move?_eq_none hmove, rfl⟩
  | some moved => exact Or.inr ⟨_, _, _, rfl, rfl⟩

/-- A script of its own does not notice a move of another. -/
theorem rest_step_of_ne {s : Joint ι α} {i j : ι} (h : j ≠ i) :
    (s.step j).rest i = s.rest i ∧ (s.step j).own i = s.own i := by
  rcases s.step_cases j with ⟨-, hstep⟩ | ⟨m, rest, backend, -, hstep⟩
  · rw [hstep]
    exact ⟨rfl, rfl⟩
  · rw [hstep]
    refine ⟨Function.update_of_ne h.symm _ _, ?_⟩
    simp [own, ownOf, h]

/-- A script that makes a move is left with the rest of it. -/
theorem rest_step_self {s : Joint ι α} {i : ι} {m : Move} {rest : Script α} {backend : Backend}
    (h : (s.rest i).move? s.backend = some (m, rest, backend)) :
    (s.step i).rest i = rest ∧ (s.step i).own i = s.own i ++ [m] := by
  unfold step
  rw [h]
  refine ⟨Function.update_self i rest s.rest, ?_⟩
  simp [own, ownOf]

end Joint

/-! ## Traces of a script -/

/-- As long as the replies are possible ones, `inv` holds of the moves made so far at all times, and `post`
of the result and of all moves at the end. The moves before the script are given. -/
def Script.Traces (limit : Nat) (inv : List Move → Prop) (post : α → List Move → Prop) :
    Script α → List Move → Prop
  | done a, moves => inv moves ∧ post a moves
  | call c next, moves => inv moves ∧ ∀ reply, c.Possible limit reply →
      (next reply).Traces limit inv post (moves ++ [.called c reply])
  | note n next, moves => inv moves ∧ next.Traces limit inv post (moves ++ [.noted n])

namespace Script

variable {inv : List Move → Prop} {post mid : α → List Move → Prop} {post' : β → List Move → Prop}
variable {moves : List Move}

/-- What holds at all times holds of the moves before the script. -/
theorem Traces.invariant {x : Script α} (h : x.Traces limit inv post moves) : inv moves := by
  cases x with
  | done a => exact h.1
  | call c next => exact h.1
  | note n next => exact h.1

theorem traces_pure {a : α} (hinv : inv moves) (h : post a moves) :
    (pure a : Script α).Traces limit inv post moves := ⟨hinv, h⟩

theorem traces_ask (c : Call) (hinv : inv moves)
    (hafter : ∀ reply, c.Possible limit reply → inv (moves ++ [.called c reply])) :
    (ask c).Traces limit inv
      (fun reply after => c.Possible limit reply ∧ after = moves ++ [.called c reply]) moves :=
  ⟨hinv, fun reply hreply => ⟨hafter reply hreply, hreply, rfl⟩⟩

theorem traces_note (n : Note) (hinv : inv moves) (hafter : inv (moves ++ [.noted n])) :
    (Service.note n).Traces limit inv (fun _ after => after = moves ++ [.noted n]) moves :=
  ⟨hinv, hafter, rfl⟩

/-- Two scripts one after the other, the second behind the moves of the first. Induction on the first. -/
theorem Traces.bind {x : Script α} {f : α → Script β} (hx : x.Traces limit inv mid moves)
    (hf : ∀ a after, inv after → mid a after → (f a).Traces limit inv post' after) :
    (x >>= f).Traces limit inv post' moves := by
  show (x.bind f).Traces limit inv post' moves
  induction x generalizing moves with
  | done a => exact hf a moves hx.1 hx.2
  | call c next ih => exact ⟨hx.1, fun reply hreply => ih reply (hx.2 reply hreply)⟩
  | note n next ih => exact ⟨hx.1, ih hx.2⟩

theorem Traces.mono {x : Script α} (hx : x.Traces limit inv mid moves)
    (h : ∀ a after, mid a after → post a after) : x.Traces limit inv post moves := by
  have hbind := hx.bind (f := pure) fun a after hinv hmid => traces_pure hinv (h a after hmid)
  rwa [bind_pure] at hbind

theorem Traces.map {x : Script α} (hx : x.Traces limit inv mid moves) {f : α → β}
    (h : ∀ a after, mid a after → post' (f a) after) : (f <$> x).Traces limit inv post' moves := by
  rw [← bind_pure_comp]
  exact hx.bind fun a after hinv hmid => traces_pure hinv (h a after hmid)

/-- The moves of a script come behind those before it. -/
theorem Traces.extends {x : Script α} (hx : x.Traces limit inv post moves) :
    x.Traces limit inv (fun a after => post a after ∧ moves <+: after) moves := by
  -- from any moves that begin with the given ones
  suffices h : ∀ before, before <+: moves →
      x.Traces limit inv (fun a after => post a after ∧ before <+: after) moves from
    h moves (List.prefix_refl moves)
  intro before hbefore
  induction x generalizing moves with
  | done a => exact ⟨hx.1, hx.2, hbefore⟩
  | call c next ih =>
    exact ⟨hx.1, fun reply hreply => ih reply (hx.2 reply hreply) (hbefore.trans (List.prefix_append _ _))⟩
  | note n next ih => exact ⟨hx.1, ih hx.2 (hbefore.trans (List.prefix_append _ _))⟩

/-- What is left of a script after a move traces on. -/
theorem Traces.move {x rest : Script α} {b after : Backend} {m : Move} (hx : x.Traces limit inv post moves)
    (hb : b.store.limit = limit) (hmove : x.move? b = some (m, rest, after)) :
    rest.Traces limit inv post (moves ++ [m]) := by
  cases x with
  | done a => cases hmove
  | call c next =>
    cases hmove
    exact hx.2 _ (Backend.possible_answer c hb).1
  | note n next =>
    cases hmove
    exact hx.2

end Script

/-! ### Of an attempt -/

/-- The moves of an attempt, what holds of the error and the moves where it fails, and of the value and the
moves where it does not. -/
def Attempt.Traces (limit : Nat) (inv : List Move → Prop) (errors : ε → List Move → Prop)
    (values : α → List Move → Prop) (x : Attempt ε α) (moves : List Move) : Prop :=
  Script.Traces limit inv (fun result after => Foreseen (errors · after) (values · after) result) x.run moves

namespace Attempt

variable {inv : List Move → Prop} {errors : ε → List Move → Prop} {values mid : α → List Move → Prop}
variable {values' : β → List Move → Prop} {moves : List Move}

theorem traces_pure {a : α} (hinv : inv moves) (h : values a moves) :
    Traces limit inv errors values (pure a : Attempt ε α) moves := ⟨hinv, h⟩

theorem traces_throw {e : ε} (hinv : inv moves) (h : errors e moves) :
    Traces limit inv errors values (throw e : Attempt ε α) moves := ⟨hinv, h⟩

theorem traces_liftExcept {x : Except ε α} (hinv : inv moves)
    (h : Foreseen (errors · moves) (values · moves) x) :
    Traces limit inv errors values (liftM x : Attempt ε α) moves := ⟨hinv, h⟩

theorem traces_mk {x : Script (Except ε α)}
    (h : x.Traces limit inv (fun result after => Foreseen (errors · after) (values · after) result) moves) :
    Traces limit inv errors values (ExceptT.mk x) moves := h

/-- A script is an attempt that does not fail. -/
theorem traces_lift {x : Script α} (h : x.Traces limit inv values moves) :
    Traces limit inv errors values (liftM x : Attempt ε α) moves :=
  Script.Traces.bind h fun _ _ hinv hvalue => Script.traces_pure hinv hvalue

theorem Traces.bind {x : Attempt ε α} {f : α → Attempt ε β} (hx : Traces limit inv errors mid x moves)
    (hf : ∀ a after, inv after → mid a after → Traces limit inv errors values' (f a) after) :
    Traces limit inv errors values' (x >>= f) moves := by
  refine Script.Traces.bind hx fun result after hinv hresult => ?_
  cases result with
  | ok a => exact hf a after hinv hresult
  | error e => exact Script.traces_pure hinv hresult

theorem Traces.mono {x : Attempt ε α} (hx : Traces limit inv errors mid x moves)
    (h : ∀ a after, mid a after → values a after) : Traces limit inv errors values x moves := by
  refine Script.Traces.mono hx fun result after hresult => ?_
  cases result with
  | ok a => exact h a after hresult
  | error e => exact hresult

/-- The moves of an attempt come behind those before it. -/
theorem Traces.extends {x : Attempt ε α} (hx : Traces limit inv errors values x moves) :
    Traces limit inv errors (fun a after => values a after ∧ moves <+: after) x moves := by
  refine Script.Traces.mono (Script.Traces.extends hx) fun result after hresult => ?_
  cases result with
  | ok a => exact hresult
  | error e => exact hresult.1

end Attempt

/-! ## Scripts that end -/

/-- The script ends after at most so many moves, whatever the replies are. -/
inductive Script.Within : Script α → Nat → Prop
  | done (a : α) (n : Nat) : Within (.done a) n
  | call {c : Call} {next : c.Reply → Script α} {n : Nat} (h : ∀ reply, Within (next reply) n) :
      Within (.call c next) (n + 1)
  | note (k : Note) {next : Script α} {n : Nat} (h : Within next n) : Within (.note k next) (n + 1)

namespace Script

variable {m n : Nat}

theorem Within.mono {x : Script α} (h : x.Within m) (hle : m ≤ n) : x.Within n := by
  induction h generalizing n with
  | done a => exact .done a n
  | call _ ih =>
    cases n with
    | zero => omega
    | succ n => exact .call fun reply => ih reply (by omega)
  | note k _ ih =>
    cases n with
    | zero => omega
    | succ n => exact .note k (ih (by omega))

theorem Within.bind {x : Script α} {f : α → Script β} (hx : x.Within m) (hf : ∀ a, (f a).Within n) :
    (x >>= f).Within (m + n) := by
  show (x.bind f).Within (m + n)
  induction hx with
  | done a => exact (hf a).mono (by omega)
  | @call c next m _ ih =>
    rw [Nat.add_right_comm m 1 n]
    exact .call ih
  | @note k next m _ ih =>
    rw [Nat.add_right_comm m 1 n]
    exact .note k ih

theorem Within.map {x : Script α} (hx : x.Within n) (f : α → β) : (f <$> x).Within n := by
  rw [← bind_pure_comp]
  exact hx.bind fun a => .done (f a) 0

/-- Two attempts one after the other; where the first fails there is nothing left to do. -/
theorem Within.attempt {x : Attempt ε α} {f : α → Attempt ε β} (hx : Within x.run m)
    (hf : ∀ a, Within (f a).run n) : Within (x >>= f).run (m + n) := by
  refine Within.bind hx fun result => ?_
  cases result with
  | ok a => exact hf a
  | error e => exact .done _ n

/-- A script that has a move left is within one move less after it. -/
theorem Within.move {x rest : Script α} {b after : Backend} {k : Move} (hx : x.Within n)
    (hmove : x.move? b = some (k, rest, after)) : 0 < n ∧ rest.Within (n - 1) := by
  cases hx with
  | done a => cases hmove
  | call h =>
    cases hmove
    exact ⟨Nat.succ_pos _, h _⟩
  | note k h =>
    cases hmove
    exact ⟨Nat.succ_pos _, h⟩

end Script

/-! ## Interleavings -/

namespace Joint

variable {s : Joint ι α} {i : ι}

/-! ### What the moves tell of the store -/

/-- What all moves made so far tell of the store. A mailbox was created at most once, and not at all as
long as it is missing. -/
structure Consistent (limit : Nat) (s : Joint ι α) : Prop where
  sound : Store.Sound s.backend.store
  limit : s.backend.store.limit = limit
  holds : ∀ i m, (i, m) ∈ s.history → m.Holds s.backend.store
  once : ∀ p, s.history.countP (·.2.makes p) ≤ (s.backend.store.contains p).toNat

theorem consistent_start {scripts : ι → Script α} {b : Backend} (h : Store.Sound b.store)
    (hlimit : b.store.limit = limit) : Consistent limit (start scripts b) where
  sound := h
  limit := hlimit
  holds _ _ h := nomatch h
  once _ := Nat.zero_le _

variable [DecidableEq ι]

theorem Consistent.step (h : s.Consistent limit) (i : ι) : (s.step i).Consistent limit := by
  rcases s.step_cases i with ⟨-, hstep⟩ | ⟨m, rest, backend, hmove, hstep⟩
  · rwa [hstep]
  · have hmoved := Script.moved h.sound hmove
    rw [hstep]
    refine ⟨hmoved.sound, hmoved.keeps.limit.trans h.limit, ?_, ?_⟩
    · intro j m' hmem
      rcases List.mem_append.mp hmem with hmem | hmem
      · exact (h.holds j m' hmem).keeps hmoved.keeps
      · cases List.mem_singleton.mp hmem
        exact hmoved.holds
    · intro p
      have hbefore := h.once p
      show (s.history ++ [(i, m)]).countP (·.2.makes p) ≤ _
      rw [List.countP_append, List.countP_singleton]
      split
      · -- it is created now, so it was not before
        rename_i hmakes
        obtain ⟨hmissing, hthere⟩ := hmoved.makes p hmakes
        rw [hmissing] at hbefore
        rw [hthere]
        exact Nat.add_le_add_right hbefore 1
      · refine hbefore.trans ?_
        cases hthere : s.backend.store.contains p with
        | false => exact Nat.zero_le _
        | true => rw [hmoved.keeps.contains hthere]

theorem consistent_run (h : s.Consistent limit) (schedule : List ι) : (run schedule s).Consistent limit := by
  induction schedule generalizing s with
  | nil => exact h
  | cons i schedule ih => exact ih (h.step i)

/-- No move changes an entry that is there. -/
theorem Consistent.entry_step (h : s.Consistent limit) (i : ι) {p : Path} {e : Mailbox.Entry}
    (he : s.backend.store.entryAt? p = some e) : (s.step i).backend.store.entryAt? p = some e := by
  rcases s.step_cases i with ⟨-, hstep⟩ | ⟨m, rest, backend, hmove, hstep⟩
  · rwa [hstep]
  · rw [hstep]
    exact (Script.moved h.sound hmove).entry p e he

/-- **A mailbox is created once**, by one script. -/
theorem Consistent.made_own_le_one (h : s.Consistent limit) (i : ι) (p : Path) : made p (s.own i) ≤ 1 :=
  (countP_ownOf_le i _ _).trans ((h.once p).trans (Bool.toNat_le _))

theorem Consistent.eq_of_made_own (h : s.Consistent limit) {i j : ι} {p : Path}
    (hi : 0 < made p (s.own i)) (hj : 0 < made p (s.own j)) : i = j := by
  by_contra hne
  have hboth := (countP_ownOf_add_le hne (·.makes p) s.history).trans (h.once p)
  have hone := Bool.toNat_le (s.backend.store.contains p)
  unfold made own at hi hj
  omega

/-- What the own moves of a script tell holds of the store. -/
theorem Consistent.holds_own (h : s.Consistent limit) {m : Move} (hm : m ∈ s.own i) :
    m.Holds s.backend.store := h.holds i m (mem_ownOf.mp hm)

/-! ### Every script ends -/

/-- A script that is done stays done. -/
theorem done_run_of_done {a : α} (h : s.rest i = .done a) (schedule : List ι) :
    (run schedule s).rest i = .done a := by
  induction schedule generalizing s with
  | nil => exact h
  | cons j schedule ih =>
    refine ih ?_
    by_cases hj : j = i
    · subst hj
      rw [step, h]
      exact h
    · rw [(rest_step_of_ne hj).1, h]

/-- **A script ends** when it has had as many turns as it may need, whatever happens in between. Induction
on the schedule. -/
theorem done_run {n : Nat} (h : (s.rest i).Within n) {schedule : List ι} (hturns : n ≤ schedule.count i) :
    ∃ a, (run schedule s).rest i = .done a := by
  induction schedule generalizing s n with
  | nil =>
    obtain rfl : n = 0 := Nat.le_zero.mp hturns
    generalize hrest : s.rest i = rest at h
    cases h with
    | done a => exact ⟨a, hrest⟩
  | cons j schedule ih =>
    by_cases hj : j = i
    · subst hj
      rcases s.step_cases j with ⟨⟨a, ha⟩, -⟩ | ⟨m, rest, backend, hmove, -⟩
      · exact ⟨a, done_run_of_done ha _⟩
      · obtain ⟨hpos, hrest⟩ := h.move hmove
        rw [List.count_cons_self] at hturns
        refine ih (n := n - 1) ?_ (by omega)
        rwa [(rest_step_self hmove).1]
    · rw [List.count_cons_of_ne hj] at hturns
      refine ih ?_ hturns
      rwa [(rest_step_of_ne hj).1]

/-! ### Traces -/

variable {inv : List Move → Prop} {post : α → List Move → Prop}

theorem traces_step (hlimit : s.backend.store.limit = limit)
    (h : (s.rest i).Traces limit inv post (s.own i)) (j : ι) :
    ((s.step j).rest i).Traces limit inv post ((s.step j).own i) := by
  by_cases hj : j = i
  · subst hj
    rcases s.step_cases j with ⟨-, hstep⟩ | ⟨m, rest, backend, hmove, -⟩
    · rwa [hstep]
    · obtain ⟨hrest, hown⟩ := rest_step_self hmove
      rw [hrest, hown]
      exact h.move hlimit hmove
  · obtain ⟨hrest, hown⟩ := rest_step_of_ne hj
    rwa [hrest, hown]

/-- **A script traces in every interleaving.** Induction on the schedule. -/
theorem traces_run (hs : s.Consistent limit) (h : (s.rest i).Traces limit inv post (s.own i))
    (schedule : List ι) :
    ((run schedule s).rest i).Traces limit inv post ((run schedule s).own i) := by
  induction schedule generalizing s with
  | nil => exact h
  | cons j schedule ih => exact ih (hs.step j) (traces_step hs.limit h j)

end Joint

end MailServer.Service
