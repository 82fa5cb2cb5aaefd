import Mathlib.Data.List.Chain
import MailServer.Http.Progress

/-!
# The histories of requests

A trace is asked to go on to a state or to fail, any number of times and in any order. It takes the steps that
are steps and reports the others, so the histories that come about are the chains of steps from the first
state. As there is a way back from the response to a failure, there are infinitely many of them; but they are
easily told: a request goes through its stages as far as it comes, and then fails and responds in turn.

* `State.Next` — the steps, one constructor each; `State.canAdvance_iff`.
* `Trace.Move`, `Trace.run` — what a trace is asked, and the trace after it has been asked.
* `Trace.exists_run_iff` — the histories are the chains of steps.
* `IsHistory`, `isHistory_iff` — the chains of steps, told from front to back.
* `histories_exact` — every single move, all histories, and what holds in each of them.
-/

namespace MailServer.Http

/-! ## Steps -/

namespace State

/-- The steps of a request. -/
inductive Next : State → State → Prop
  | authenticate : Next .received .authenticating
  | decode : Next .authenticating .decoding
  | provision : Next .decoding .provisioning
  | execute : Next .provisioning .executing
  | respond : Next .executing .responding
  | answer (kind : Failure) : Next (.failed kind) .responding
  | complete : Next .responding .completed
  | fail {s : State} (kind : Failure) (hcompleted : s ≠ .completed) (hfailed : ∀ kind, s ≠ .failed kind) :
      Next s (.failed kind)

theorem next_failed_iff {s : State} {kind : Failure} :
    Next s (.failed kind) ↔ s ≠ .completed ∧ ∀ other, s ≠ .failed other :=
  ⟨fun | .fail _ hcompleted hfailed => ⟨hcompleted, hfailed⟩, fun h => .fail kind h.1 h.2⟩

theorem canAdvance_iff {s next : State} : s.canAdvance next = true ↔ Next s next := by
  constructor
  · intro h
    cases next with
    | failed kind =>
      refine next_failed_iff.mpr ⟨?_, ?_⟩
      · rintro rfl
        cases h
      · rintro other rfl
        cases h
    | _ => cases s <;> first | constructor | cases h
  · rintro (_ | _ | _ | _ | _ | _ | _ | ⟨kind, hcompleted, hfailed⟩)
    case fail =>
      cases s with
      | completed => exact absurd rfl hcompleted
      | failed other => exact absurd rfl (hfailed other)
      | _ => rfl
    all_goals rfl

instance (s next : State) : Decidable (Next s next) := decidable_of_iff _ canAdvance_iff

end State

open State (Next)

/-! ## Moves -/

namespace Trace

/-- What a trace may be asked. -/
inductive Move where
  | advance (next : State)
  | fail (kind : Failure)
deriving DecidableEq, Repr

/-- The trace after a move, with what is reported. -/
def move (t : Trace) : Move → Trace × Option Log.Event
  | .advance next => t.advance next
  | .fail kind => t.fail kind

/-- A new trace after the moves. -/
def run (moves : List Move) : Trace := moves.foldl (fun t m => (t.move m).1) .start

variable {t : Trace} {next : State} {kind : Failure} {moves : List Move} {l : List State}

theorem history_push (t : Trace) (next : State) : (mk (next :: t.later)).history = t.history ++ [next] := by
  rw [history, history, List.reverse_cons, List.cons_append]

theorem getLast?_history (t : Trace) : t.history.getLast? = some t.current := by
  obtain ⟨later⟩ := t
  cases later with
  | nil => rfl
  | cons next later => rw [history_push, List.getLast?_concat]; rfl

theorem advance_of_next (h : Next t.current next) : t.advance next = (⟨next :: t.later⟩, none) := by
  rw [advance, if_pos (State.canAdvance_iff.mpr h)]

theorem advance_of_not_next (h : ¬ Next t.current next) :
    t.advance next = (t, some (refusal t.current next)) := by
  rw [advance, if_neg (State.canAdvance_iff.not.mpr h)]

theorem fail_of_next (h : Next t.current (.failed kind)) :
    t.fail kind = (⟨.responding :: .failed kind :: t.later⟩, none) := by
  rw [fail, advance_of_next h]
  exact advance_of_next (.answer kind)

theorem fail_of_not_next (h : ¬ Next t.current (.failed kind)) :
    t.fail kind = (t, some (refusal t.current (.failed kind))) := by
  rw [fail, advance_of_not_next h]

/-! ## Chains of steps -/

theorem isChain_push (ht : t.history.IsChain Next) (h : Next t.current next) :
    (mk (next :: t.later)).history.IsChain Next := by
  rw [history_push]
  refine ht.append (List.isChain_singleton next) ?_
  -- the two chains meet at the state that the trace is in
  rintro last hlast first hfirst
  cases (getLast?_history t).symm.trans hlast
  cases hfirst
  exact h

theorem isChain_move (ht : t.history.IsChain Next) (m : Move) : (t.move m).1.history.IsChain Next := by
  cases m with
  | advance next =>
    by_cases h : Next t.current next
    · rw [move, advance_of_next h]
      exact isChain_push ht h
    · rw [move, advance_of_not_next h]
      exact ht
  | fail kind =>
    by_cases h : Next t.current (.failed kind)
    · rw [move, fail_of_next h]
      exact isChain_push (t := ⟨.failed kind :: t.later⟩) (isChain_push ht h) (.answer kind)
    · rw [move, fail_of_not_next h]
      exact ht

theorem run_concat (moves : List Move) (m : Move) : run (moves ++ [m]) = ((run moves).move m).1 := by
  rw [run, List.foldl_append]
  rfl

theorem isChain_run (moves : List Move) : (run moves).history.IsChain Next := by
  induction moves using List.reverseRecOn with
  | nil => exact List.isChain_singleton State.received
  | append_singleton moves m ih =>
    rw [run_concat]
    exact isChain_move ih m

/-- A chain of steps comes about where its steps are asked for one after the other. -/
theorem history_run_advance (h : (.received :: l).IsChain Next) :
    (run (l.map .advance)).history = .received :: l := by
  induction l using List.reverseRecOn with
  | nil => rfl
  | append_singleton l next ih =>
    rw [← List.cons_append, List.isChain_append] at h
    obtain ⟨hfront, -, hlink⟩ := h
    have hhistory := ih hfront
    have hnext : Next (run (l.map .advance)).current next :=
      hlink _ (hhistory ▸ getLast?_history _) next rfl
    rw [List.map_append, List.map_singleton, run_concat, move, advance_of_next hnext, history_push, hhistory,
      List.cons_append]

/-- The histories are the chains of steps from the first state. -/
theorem exists_run_iff :
    (∃ moves, (run moves).history = l) ↔ l.head? = some .received ∧ l.IsChain Next := by
  constructor
  · rintro ⟨moves, rfl⟩
    exact ⟨rfl, isChain_run moves⟩
  · rintro ⟨hhead, hchain⟩
    obtain ⟨rest, rfl⟩ := List.head?_eq_some_iff.mp hhead
    exact ⟨_, history_run_advance hchain⟩

end Trace

/-! ## Histories from front to back -/

/-- The states of a request up to its handler. -/
def stages : List State := [.received, .authenticating, .decoding, .provisioning, .executing]

/-- What stands behind a failure or a response: a failure is followed by the response to it, and a response
by a failure or, at the end, by completion. -/
inductive Behind : State → List State → Prop
  | nothing (s : State) : Behind s []
  | responding {kind : Failure} {rest : List State} (h : Behind .responding rest) :
      Behind (.failed kind) (.responding :: rest)
  | failed {rest : List State} (kind : Failure) (h : Behind (.failed kind) rest) :
      Behind .responding (.failed kind :: rest)
  | completed : Behind .responding [.completed]

/-- A request enters some of the stages, the first ones, and may respond behind all of them or fail behind
any of them. -/
inductive IsHistory : List State → Prop
  | entered {s : List State} (hne : s ≠ []) (hs : s <+: stages) : IsHistory s
  | responded {rest : List State} (h : Behind .responding rest) : IsHistory (stages ++ .responding :: rest)
  | failed {s rest : List State} (kind : Failure) (hne : s ≠ []) (hs : s <+: stages)
      (h : Behind (.failed kind) rest) : IsHistory (s ++ .failed kind :: rest)

variable {s : State} {l before after rest : List State}

theorem Behind.isChain (h : Behind s rest) : (s :: rest).IsChain Next := by
  induction h with
  | nothing s => exact List.isChain_singleton s
  | responding _ ih => exact List.isChain_cons_cons.mpr ⟨.answer _, ih⟩
  | failed kind _ ih => exact List.isChain_cons_cons.mpr ⟨.fail kind nofun nofun, ih⟩
  | completed => exact List.isChain_pair.mpr .complete

theorem eq_nil_of_completed (h : (.completed :: rest).IsChain Next) : rest = [] := by
  cases rest with
  | nil => rfl
  | cons next rest =>
    obtain ⟨hnext, -⟩ := List.isChain_cons_cons.mp h
    cases hnext with
    | fail kind hcompleted _ => exact absurd rfl hcompleted

theorem behind_of_isChain (hs : s = .responding ∨ ∃ kind, s = .failed kind)
    (h : (s :: rest).IsChain Next) : Behind s rest := by
  induction rest generalizing s with
  | nil => exact .nothing s
  | cons next rest ih =>
    obtain ⟨hnext, hrest⟩ := List.isChain_cons_cons.mp h
    rcases hs with rfl | ⟨kind, rfl⟩
    · cases hnext with
      | complete =>
        rw [eq_nil_of_completed hrest]
        exact .completed
      | fail kind => exact .failed kind (ih (Or.inr ⟨kind, rfl⟩) hrest)
    · cases hnext with
      | answer => exact .responding (ih (Or.inl rfl) hrest)
      | fail _ _ hfailed => exact absurd rfl (hfailed kind)

/-- A step from a stage leads to the next stage, to the response behind the last one, or to a failure. -/
theorem next_of_stage (hs : stages = before ++ s :: after) {next : State} (h : Next s next) :
    (∃ later, after = next :: later) ∨ (after = [] ∧ next = .responding) ∨ ∃ kind, next = .failed kind := by
  cases h <;> simp_all [stages, List.cons_eq_append_iff]

/-- A chain of steps from a stage is a history, with the stages before it in front. Induction on the chain,
the stage generalised; from the last stage on, and behind a failure, no stage comes again. -/
theorem isHistory_of_stage (hs : stages = before ++ s :: after) (h : (s :: rest).IsChain Next) :
    IsHistory (before ++ s :: rest) := by
  have hne : before ++ [s] ≠ [] := List.append_ne_nil_of_right_ne_nil _ (List.cons_ne_nil s [])
  rw [List.append_cons] at hs ⊢
  induction rest generalizing before s after with
  | nil =>
    rw [List.append_nil]
    exact .entered hne ⟨after, hs.symm⟩
  | cons next rest ih =>
    obtain ⟨hnext, hrest⟩ := List.isChain_cons_cons.mp h
    rcases next_of_stage (by rwa [List.append_cons]) hnext with ⟨later, rfl⟩ | ⟨rfl, rfl⟩ | ⟨kind, rfl⟩
    · rw [List.append_cons] at hs ⊢
      exact ih hs hrest (List.append_ne_nil_of_right_ne_nil _ (List.cons_ne_nil next []))
    · rw [List.append_nil] at hs
      rw [← hs]
      exact .responded (behind_of_isChain (Or.inl rfl) hrest)
    · exact .failed kind hne ⟨after, hs.symm⟩ (behind_of_isChain (Or.inr ⟨kind, rfl⟩) hrest)

theorem isChain_stages : stages.IsChain Next := by decide

theorem failed_notMem_stages (kind : Failure) : .failed kind ∉ stages := by simp [stages]

/-- The first stages, any number of them but none, are a chain from the first state. -/
theorem isChain_of_prefix (hne : l ≠ []) (hl : l <+: stages) :
    l.head? = some .received ∧ l.IsChain Next := by
  refine ⟨?_, isChain_stages.prefix hl⟩
  cases l with
  | nil => exact absurd rfl hne
  | cons s l => rw [(List.cons_prefix_cons.mp hl).1, List.head?_cons]

theorem next_failed_of_prefix (hl : l <+: stages) (kind : Failure) (hlast : s ∈ l.getLast?) :
    Next s (.failed kind) := by
  have hs : s ∈ stages := hl.subset (List.mem_of_getLast? hlast)
  refine .fail kind ?_ ?_
  · rintro rfl
    exact absurd hs (by decide)
  · rintro other rfl
    exact failed_notMem_stages other hs

theorem isHistory_iff : IsHistory l ↔ l.head? = some .received ∧ l.IsChain Next := by
  constructor
  · rintro (⟨hne, hl⟩ | ⟨h⟩ | ⟨kind, hne, hl, h⟩)
    case entered => exact isChain_of_prefix hne hl
    case responded =>
      refine ⟨rfl, isChain_stages.append h.isChain ?_⟩
      rintro last hlast first hfirst
      cases hlast
      cases hfirst
      exact .respond
    case failed s rest =>
      obtain ⟨hhead, hchain⟩ := isChain_of_prefix hne hl
      refine ⟨by rw [List.head?_append, hhead, Option.some_or], hchain.append h.isChain ?_⟩
      rintro last hlast first hfirst
      cases hfirst
      exact next_failed_of_prefix hl kind hlast
  · rintro ⟨hhead, hchain⟩
    obtain ⟨rest, rfl⟩ := List.head?_eq_some_iff.mp hhead
    have hfirst : stages = [] ++ .received :: stages.tail := rfl
    exact isHistory_of_stage hfirst hchain

/-! ## In every history -/

/-- No stage stands behind a failure or a response. -/
theorem Behind.notMem_of_mem_stages (h : Behind s rest) {stage : State} (hstage : stage ∈ stages) :
    stage ∉ rest := by
  have hne {other : State} (hother : other ∉ stages) : stage ≠ other := fun heq => hother (heq ▸ hstage)
  induction h with
  | nothing s => exact List.not_mem_nil
  | responding _ ih => exact List.not_mem_cons_of_ne_of_not_mem (hne (by decide)) ih
  | failed kind _ ih => exact List.not_mem_cons_of_ne_of_not_mem (hne (failed_notMem_stages kind)) ih
  | completed => exact List.not_mem_cons_of_ne_of_not_mem (hne (by decide)) List.not_mem_nil

/-- The last stage is entered when all of them are. -/
theorem eq_stages_of_mem (hl : l <+: stages) (hmem : .executing ∈ l) : l = stages := by
  have hlast : stages = [.received, .authenticating, .decoding, .provisioning] ++ [.executing] := rfl
  rw [hlast, List.prefix_concat_iff] at hl
  rcases hl with rfl | hl
  · rfl
  · exact absurd (hl.subset hmem) (by decide)

/-- The handler is called once at most, and all stages before it have been passed. -/
theorem IsHistory.executing (h : IsHistory l) (hmem : .executing ∈ l) :
    ∃ rest, l = stages ++ rest ∧ .executing ∉ rest := by
  have hstage : State.executing ∈ stages := by decide
  cases h with
  | entered hne hl => exact ⟨[], by rw [eq_stages_of_mem hl hmem, List.append_nil], List.not_mem_nil⟩
  | responded h => exact ⟨_, rfl, List.not_mem_cons_of_ne_of_not_mem nofun (h.notMem_of_mem_stages hstage)⟩
  | failed kind hne hl h =>
    have hrest := List.not_mem_cons_of_ne_of_not_mem (nofun : State.executing ≠ .failed kind)
      (h.notMem_of_mem_stages hstage)
    have hl := eq_stages_of_mem hl ((List.mem_append.mp hmem).resolve_right hrest)
    exact ⟨_, by rw [hl], hrest⟩

/-- Nothing follows completion. -/
theorem IsHistory.completed (h : IsHistory (before ++ .completed :: after)) : after = [] :=
  eq_nil_of_completed (List.isChain_append.mp (isHistory_iff.mp h).2).2.1

namespace Trace

variable {t : Trace} {kind : Failure}

/-- The failure that is told is the first one in the history. -/
theorem failure?_eq_some_iff :
    t.failure? = some kind ↔
      ∃ before after, t.history = before ++ .failed kind :: after ∧ ∀ other, .failed other ∉ before := by
  rw [failure?, List.findSome?_eq_some_iff]
  constructor
  · rintro ⟨before, s, after, hhistory, hs, hbefore⟩
    obtain rfl : s = .failed kind := by
      cases s with
      | failed other => rw [Option.some.inj hs]
      | _ => cases hs
    exact ⟨before, after, hhistory, fun other hmem => nomatch hbefore _ hmem⟩
  · rintro ⟨before, after, hhistory, hbefore⟩
    refine ⟨before, _, after, hhistory, rfl, fun s hmem => ?_⟩
    cases s with
    | failed other => exact absurd hmem (hbefore other)
    | _ => rfl

theorem failure?_eq_none_iff : t.failure? = none ↔ ∀ kind, .failed kind ∉ t.history := by
  rw [failure?, List.findSome?_eq_none_iff]
  constructor
  · exact fun h kind hmem => nomatch h _ hmem
  · intro h s hmem
    cases s with
    | failed kind => exact absurd hmem (h kind)
    | _ => rfl

end Trace

/-! ## All of it -/

/-- **Histories.** A trace takes the steps that are steps and reports the others with one warning, as it does
with a failure of a request that has failed or is completed. The histories that come about so are those told
by `IsHistory`; in each of them the handler is called once at most and behind all other stages, nothing
follows completion, and the failure that is told is the first one. -/
theorem histories_exact :
    (∀ t next, Next (Trace.current t) next →
      (t.advance next).1.history = t.history ++ [next] ∧ (t.advance next).2 = none) ∧
    (∀ t next, ¬ Next (Trace.current t) next → t.advance next = (t, some (Trace.refusal t.current next))) ∧
    (∀ t kind, Trace.current t ≠ .completed → (∀ other, t.current ≠ .failed other) →
      (t.fail kind).1.history = t.history ++ [.failed kind, .responding] ∧ (t.fail kind).2 = none) ∧
    (∀ t kind, (Trace.current t = .completed ∨ ∃ other, t.current = .failed other) →
      t.fail kind = (t, some (Trace.refusal t.current (.failed kind)))) ∧
    (∀ current next, (Trace.refusal current next).level = .warn) ∧
    (∀ l, (∃ moves, (Trace.run moves).history = l) ↔ IsHistory l) ∧
    (∀ l, IsHistory l → .executing ∈ l → ∃ rest, l = stages ++ rest ∧ .executing ∉ rest) ∧
    (∀ before after, IsHistory (before ++ .completed :: after) → after = []) ∧
    (∀ t kind, Trace.failure? t = some kind ↔
      ∃ before after, t.history = before ++ .failed kind :: after ∧ ∀ other, .failed other ∉ before) ∧
    (∀ t, Trace.failure? t = none ↔ ∀ kind, .failed kind ∉ t.history) := by
  refine ⟨?advances, fun t next h => Trace.advance_of_not_next h, ?fails, ?refuses, fun _ _ => rfl, ?histories,
    fun l => IsHistory.executing, fun before after => IsHistory.completed,
    fun t kind => Trace.failure?_eq_some_iff, fun t => Trace.failure?_eq_none_iff⟩
  case advances =>
    intro t next h
    rw [Trace.advance_of_next h]
    exact ⟨Trace.history_push t next, rfl⟩
  case fails =>
    intro t kind hcompleted hfailed
    rw [Trace.fail_of_next (.fail kind hcompleted hfailed)]
    refine ⟨?_, rfl⟩
    rw [Trace.history_push ⟨.failed kind :: t.later⟩, Trace.history_push, List.append_assoc,
      List.singleton_append]
  case refuses =>
    intro t kind hend
    refine Trace.fail_of_not_next fun h => ?_
    obtain ⟨hcompleted, hfailed⟩ := State.next_failed_iff.mp h
    rcases hend with hend | ⟨other, hend⟩
    · exact hcompleted hend
    · exact hfailed other hend
  case histories =>
    intro l
    rw [Trace.exists_run_iff, isHistory_iff]

/-- A request that skips a stage once, fails in its handler, and fails again after its response. -/
def troubled : List Trace.Move :=
  [.advance .authenticating, .advance .provisioning, .advance .decoding, .advance .provisioning,
    .advance .executing, .fail .internal, .advance .completed, .fail .badRequest]

theorem histories_exact_troubled :
    (Trace.start.advance .authenticating).1.history = [.received, .authenticating] ∧
    Trace.start.advance .decoding = (.start, some (Trace.refusal .received .decoding)) ∧
    (Trace.start.fail .unauthorized).1.history = [.received, .failed .unauthorized, .responding] ∧
    (Trace.run troubled).fail .badRequest =
      (Trace.run troubled, some (Trace.refusal .completed (.failed .badRequest))) ∧
    (∃ rest, (Trace.run troubled).history = stages ++ rest ∧ .executing ∉ rest) ∧
    (∃ before after, (Trace.run troubled).history = before ++ .completed :: after ∧ after = []) := by
  obtain ⟨hadvances, hignores, hfails, hrefuses, -, hhistories, hexecuting, hcompleted, -⟩ := histories_exact
  have htroubled : IsHistory (Trace.run troubled).history := (hhistories _).mp ⟨troubled, rfl⟩
  have htold : (Trace.run troubled).history = stages ++ [.failed .internal, .responding] ++ [.completed] := rfl
  exact ⟨(hadvances .start .authenticating .authenticate).1, hignores .start .decoding (by decide),
    (hfails .start .unauthorized nofun nofun).1, hrefuses (Trace.run troubled) .badRequest (Or.inl rfl),
    hexecuting _ htroubled (by decide),
    _, _, htold, hcompleted _ _ (htold ▸ htroubled)⟩

end MailServer.Http
