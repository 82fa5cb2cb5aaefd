import MailServer.Imap.Connection
import MailServer.Proofs.Closed
import MailServer.Proofs.Reports

/-!
# A connection that closes

The answer to a command is written when the command has been carried out, and all of it at once where
the output takes every write. So whenever the connection closes, a command has written its whole answer
or nothing. The close may come before a command, while one of its calls is without an answer, or when it
has been carried out and nothing is written; its handle may be closed or given up.

* `Service.cutShort`, `runUntil_cutShort`, `runUntil_givenUp` — calls that are answered up to one of them.
* `Channel` — a connection in use; `Channel.execute`, `Channel.run` — commands on it, each with the moment
  at which the connection closes, if it does.
* `Channel.Way`, `execute_way` — the ways of a command: one case for each.
* `closing_all_or_nothing` — what has been written, and what is done after the close.
-/

namespace MailServer

/-! ## Calls that are given up -/

namespace Service

variable {α σ : Type}

/-- The number of calls that a script makes where all of them are answered. -/
def Script.calls (answer : (c : Call) → σ → c.Reply × σ) : Script α → σ → Nat
  | done _, _ => 0
  | call c next, s => (next (answer c s).1).calls answer (answer c s).2 + 1
  | note _ next, s => next.calls answer s

/-- Calls are answered up to a number of them; the one behind these is given up. What a call that is
given up has done by then is up to the store. -/
def cutShort (answer : (c : Call) → σ → c.Reply × σ) (giveUp : Call → σ → σ) (c : Call) :
    Option Nat × σ → Option c.Reply × Option Nat × σ
  | (none, s) => (some (answer c s).1, none, (answer c s).2)
  | (some 0, s) => (none, some 0, giveUp c s)
  | (some (n + 1), s) => (some (answer c s).1, some n, (answer c s).2)

variable (answer : (c : Call) → σ → c.Reply × σ) (giveUp : Call → σ → σ)

/-- Where no call of a script is given up, the script runs as if none could be. Induction on the
script; the number of calls left goes down with them. -/
theorem runUntil_cutShort (script : Script α) (left : Option Nat) (s : σ)
    (h : ∀ n ∈ left, script.calls answer s ≤ n) :
    ∃ left', script.runUntil (cutShort answer giveUp) (left, s) =
      (some (script.run answer s).1, (left', (script.run answer s).2.1), (script.run answer s).2.2) := by
  induction script generalizing left s with
  | done a => exact ⟨left, rfl⟩
  | note n next ih =>
    obtain ⟨left', hnext⟩ := ih left s h
    exact ⟨left', by rw [Script.runUntil, hnext]; rfl⟩
  | call c next ih =>
    cases left with
    | none =>
      obtain ⟨left', hnext⟩ := ih (answer c s).1 none (answer c s).2 (by simp)
      exact ⟨left', hnext⟩
    | some left =>
      cases left with
      | zero => exact absurd (h 0 rfl) (Nat.not_succ_le_zero _)
      | succ n =>
        have hrest : ∀ m ∈ some n, (next (answer c s).1).calls answer (answer c s).2 ≤ m := by
          rintro m ⟨⟩
          exact Nat.le_of_succ_le_succ (h (n + 1) rfl)
        obtain ⟨left', hnext⟩ := ih (answer c s).1 (some n) (answer c s).2 hrest
        exact ⟨left', hnext⟩

/-- A script that makes more calls than are answered comes to nothing. -/
theorem runUntil_givenUp (script : Script α) {n : Nat} {s : σ} (h : n < script.calls answer s) :
    ∃ left s' notes,
      script.runUntil (cutShort answer giveUp) (some n, s) = (none, (left, s'), notes) := by
  induction script generalizing n s with
  | done a => exact absurd h (Nat.not_lt_zero n)
  | note m next ih =>
    obtain ⟨left, s', notes, hnext⟩ := ih h
    exact ⟨left, s', m :: notes, by rw [Script.runUntil, hnext]⟩
  | call c next ih =>
    cases n with
    | zero => exact ⟨_, _, _, rfl⟩
    | succ n =>
      obtain ⟨left, s', notes, hnext⟩ := ih (answer c s).1 (Nat.lt_of_succ_lt_succ h)
      exact ⟨left, s', notes, hnext⟩

end Service

/-! ## Commands on a connection -/

namespace Imap

open Service (Call cutShort)

/-- Where every write succeeds, a whole answer is written. -/
theorem Outlet.writeAll_unlimited (lines : List String) :
    Outlet.unlimited.writeAll lines = (String.join lines, .unlimited, .ok ()) := by
  induction lines with
  | nil => rfl
  | cons line rest ih =>
    have hwrite : Outlet.unlimited.write = .ok .unlimited := rfl
    rw [writeAll, hwrite]
    dsimp only
    rw [ih, String.join_cons]

/-- What the holder of the handle does to close a connection. -/
inductive Ending where
  | close
  | release
deriving DecidableEq, Repr

/-- The cell when this is done. -/
def Ending.act : Ending → Closing.Cell → Closing.Cell
  | close, cell => cell.close
  | release, cell => cell.release

/-- A wait for the close on this cell is over. The signal is the one that came with the handle. -/
def isOver (cell : Closing.Cell) : Bool := ((Closing.Signal.subscribe .fresh).poll cell).1

/-- Either ending ends the wait. -/
theorem isOver_act (e : Ending) (cell : Closing.Cell) : isOver (e.act cell) = true := by
  rw [isOver, Closing.Signal.poll_eq]
  cases e with
  | close => exact cell.ended_close
  | release => exact cell.ended_release

theorem isOver_fresh : isOver .fresh = false := by
  rw [isOver, Closing.Signal.poll_eq]
  rfl

/-- When a connection closes, as a command on it goes. -/
inductive Moment where
  /-- Before the command starts. -/
  | before
  /-- While the call behind so many others of the command is without an answer. -/
  | pending (calls : Nat)
  /-- When the command has been carried out and nothing is written. -/
  | finished
deriving DecidableEq, Repr

/-- A command, with the moment and the way in which the connection closes, if it does. -/
structure Channel.Turn where
  command : Command
  ending : Option (Moment × Ending)

/-- A connection in use: the cell in which its close is announced, the text that has been written on it,
and the state behind its calls. -/
structure Channel (σ : Type) where
  connection : Connection
  cell : Closing.Cell
  output : String
  state : σ

namespace Channel

variable {σ : Type}

/-- A connection that has just been opened, whose output takes every write. -/
def start (caller : Caller) (s : σ) : Channel σ := ⟨.start caller .unlimited, .fresh, "", s⟩

section Execute

variable (answer : (c : Call) → σ → c.Reply × σ) (giveUp : Call → σ → σ)

/-- Carries out a command of which so many calls are answered, if there is a number. `finish` is the cell
when the command has been carried out. -/
def carryOut (l : Channel σ) (left : Option Nat) (finish : Closing.Cell) (c : Command) :
    Execution × Channel σ :=
  let connection := { l.connection with closed := isOver l.cell }
  let (execution, connection, (_, s), _) :=
    connection.execute (cutShort answer giveUp) (isOver finish) c (left, l.state)
  (execution, ⟨connection, finish, l.output ++ execution.written, s⟩)

/-- Carries out a command, with the close at its moment. A close while a call is without an answer does
not take place where there is no such call. -/
def execute (l : Channel σ) (t : Turn) : Execution × Channel σ :=
  match t.ending with
  | none => l.carryOut answer giveUp none l.cell t.command
  | some (.before, e) => { l with cell := e.act l.cell }.carryOut answer giveUp none (e.act l.cell) t.command
  | some (.pending n, e) =>
    let (execution, after) := l.carryOut answer giveUp (some n) l.cell t.command
    (execution, if after.connection.closed then { after with cell := e.act l.cell } else after)
  | some (.finished, e) => l.carryOut answer giveUp none (e.act l.cell) t.command

/-- What carrying out a command comes to where nothing closes. -/
def processed (l : Channel σ) (c : Command) : (Session × List Response) × σ × List Service.Note :=
  (c.process l.connection.session).run answer l.state

/-- The whole answer to a command, as it is sent: all of its lines with their line ends. -/
def transcript (l : Channel σ) (c : Command) : String :=
  String.join ((l.processed answer c).1.2.map Response.wire)

/-- The close of a turn takes place in it: there is a call that is without an answer at its moment, or its
moment is no call. -/
def Turn.Closes (t : Turn) (l : Channel σ) : Prop :=
  match t.ending with
  | none => False
  | some (.pending n, _) => n < (t.command.process l.connection.session).calls answer l.state
  | some _ => True

/-- The ways of a command. The connection is closed when it starts; a call of it is given up; the
connection closes when it has been carried out; or its answer is written. -/
inductive Way (l : Channel σ) (t : Turn) : Execution → Channel σ → Prop
  | refused {cell : Closing.Cell} (hclosed : isOver l.cell = true ∨ ∃ e, t.ending = some (.before, e))
      (hover : isOver cell = true) :
      Way l t .abandoned ⟨l.connection.close, cell, l.output, l.state⟩
  | givenUp {n : Nat} {e : Ending} {cell : Closing.Cell} {s : σ} (hopen : isOver l.cell = false)
      (hending : t.ending = some (.pending n, e))
      (hcalls : n < (t.command.process l.connection.session).calls answer l.state)
      (hover : isOver cell = true) :
      Way l t .abandoned ⟨l.connection.close, cell, l.output, s⟩
  | hungUp {e : Ending} {cell : Closing.Cell} (hopen : isOver l.cell = false)
      (hending : t.ending = some (.finished, e)) (hover : isOver cell = true) :
      Way l t .abandoned
        ⟨⟨(l.processed answer t.command).1.1, .unlimited, true⟩, cell, l.output,
          (l.processed answer t.command).2.1⟩
  | completed (hopen : isOver l.cell = false) (hnot : ¬ t.Closes answer l) :
      Way l t ⟨.completed, l.transcript answer t.command⟩
        ⟨⟨(l.processed answer t.command).1.1, .unlimited, false⟩, l.cell,
          l.output ++ l.transcript answer t.command, (l.processed answer t.command).2.1⟩

end Execute

section Ways

variable {answer : (c : Call) → σ → c.Reply × σ} {giveUp : Call → σ → σ} {l : Channel σ}

theorem carryOut_of_over (h : isOver l.cell = true) (left : Option Nat) (finish : Closing.Cell)
    (c : Command) :
    l.carryOut answer giveUp left finish c =
      (.abandoned, ⟨l.connection.close, finish, l.output, l.state⟩) := by
  unfold carryOut Connection.execute
  dsimp only
  rw [if_pos h]
  simp [Execution.abandoned, Connection.close, h]

theorem carryOut_of_givenUp (giveUp : Call → σ → σ) (hopen : isOver l.cell = false) {n : Nat}
    (finish : Closing.Cell) {c : Command} (h : n < (c.process l.connection.session).calls answer l.state) :
    ∃ s, l.carryOut answer giveUp (some n) finish c =
      (.abandoned, ⟨l.connection.close, finish, l.output, s⟩) := by
  obtain ⟨left, s, notes, hrun⟩ := Service.runUntil_givenUp answer giveUp _ h
  refine ⟨s, ?_⟩
  unfold carryOut Connection.execute
  dsimp only
  rw [if_neg (by simp [hopen]), hrun]
  simp [Execution.abandoned, Connection.close]

theorem carryOut_of_answered (hopen : isOver l.cell = false) (hout : l.connection.outlet = .unlimited)
    {left : Option Nat} (finish : Closing.Cell) {c : Command}
    (h : ∀ n ∈ left, (c.process l.connection.session).calls answer l.state ≤ n) :
    l.carryOut answer giveUp left finish c =
      if isOver finish then
        (.abandoned, ⟨⟨(l.processed answer c).1.1, .unlimited, true⟩, finish, l.output,
          (l.processed answer c).2.1⟩)
      else
        (⟨.completed, l.transcript answer c⟩, ⟨⟨(l.processed answer c).1.1, .unlimited, false⟩, finish,
          l.output ++ l.transcript answer c, (l.processed answer c).2.1⟩) := by
  obtain ⟨left', hrun⟩ := Service.runUntil_cutShort answer giveUp _ _ _ h
  unfold carryOut Connection.execute
  dsimp only
  rw [if_neg (by simp [hopen]), hrun]
  dsimp only
  rw [Connection.respond]
  cases isOver finish with
  | true => simp [Execution.abandoned, processed, hout]
  | false =>
    dsimp only
    rw [hout, Outlet.writeAll_unlimited]
    simp [processed, transcript]

/-- A command goes one of the ways. -/
theorem execute_way (answer : (c : Call) → σ → c.Reply × σ) (giveUp : Call → σ → σ)
    (hout : l.connection.outlet = .unlimited) (t : Turn) :
    Way answer l t (l.execute answer giveUp t).1 (l.execute answer giveUp t).2 := by
  unfold execute
  cases hclosed : isOver l.cell with
  | true =>
    have hrefused : ∀ left finish, l.carryOut answer giveUp left finish t.command =
        (.abandoned, ⟨l.connection.close, finish, l.output, l.state⟩) :=
      fun left finish => carryOut_of_over hclosed left finish t.command
    split
    · rw [hrefused]
      exact .refused (Or.inl hclosed) hclosed
    · rw [carryOut_of_over (isOver_act _ _)]
      exact .refused (Or.inl hclosed) (isOver_act _ _)
    · rw [hrefused]
      exact .refused (Or.inl hclosed) (isOver_act _ _)
    · rw [hrefused]
      exact .refused (Or.inl hclosed) (isOver_act _ _)
  | false =>
    split
    · rename_i hending
      rw [carryOut_of_answered hclosed hout _ (by simp), if_neg (by simp [hclosed])]
      exact .completed hclosed (by simp [Turn.Closes, hending])
    · rename_i e hending
      rw [carryOut_of_over (isOver_act _ _)]
      exact .refused (Or.inr ⟨e, hending⟩) (isOver_act _ _)
    · rename_i n e hending
      by_cases hcalls : n < (t.command.process l.connection.session).calls answer l.state
      · obtain ⟨s, hgiven⟩ := carryOut_of_givenUp giveUp hclosed l.cell hcalls
        rw [hgiven]
        exact .givenUp hclosed hending hcalls (isOver_act _ _)
      · rw [carryOut_of_answered hclosed hout _ (by simpa using hcalls), if_neg (by simp [hclosed])]
        exact .completed hclosed (by simpa [Turn.Closes, hending] using hcalls)
    · rename_i e hending
      rw [carryOut_of_answered hclosed hout _ (by simp), if_pos (isOver_act _ _)]
      exact .hungUp hclosed hending (isOver_act _ _)

namespace Way

variable {t : Turn} {execution : Execution} {after : Channel σ}

theorem outlet (h : Way answer l t execution after) (hout : l.connection.outlet = .unlimited) :
    after.connection.outlet = .unlimited := by
  cases h with
  | refused => exact hout
  | givenUp => exact hout
  | hungUp => rfl
  | completed => rfl

/-- A command has written its whole answer, or nothing. -/
theorem all_or_nothing (h : Way answer l t execution after) :
    (execution = ⟨.completed, l.transcript answer t.command⟩ ∧
      after.output = l.output ++ l.transcript answer t.command) ∨
    (execution = .abandoned ∧ after.output = l.output) := by
  cases h with
  | completed => exact Or.inl ⟨rfl, rfl⟩
  | _ => exact Or.inr ⟨rfl, rfl⟩

/-- On a connection that is closed when it starts, a command leaves everything as it is. -/
theorem of_closed (h : Way answer l t execution after)
    (hclosed : isOver l.cell = true ∨ ∃ e, t.ending = some (.before, e)) :
    execution = .abandoned ∧ isOver after.cell = true ∧ after.output = l.output ∧
      after.connection.session = l.connection.session ∧ after.state = l.state := by
  have hnot : ∀ {m e}, isOver l.cell = false → t.ending = some (m, e) → m = .before := by
    intro m e hopen hending
    rcases hclosed with hover | ⟨e', hbefore⟩
    · exact absurd (hopen.symm.trans hover) Bool.false_ne_true
    · exact congrArg Prod.fst (Option.some.inj (hending.symm.trans hbefore))
  cases h with
  | refused _ hover => exact ⟨rfl, hover, rfl, rfl, rfl⟩
  | givenUp hopen hending => cases hnot hopen hending
  | hungUp hopen hending => cases hnot hopen hending
  | completed hopen hcloses =>
    rcases hclosed with hover | ⟨e, hbefore⟩
    · exact absurd (hopen.symm.trans hover) Bool.false_ne_true
    · exact absurd (by simp [Turn.Closes, hbefore]) hcloses

/-- A command during which the connection closes is abandoned. -/
theorem of_closes (h : Way answer l t execution after) (hcloses : t.Closes answer l) :
    execution = .abandoned ∧ isOver after.cell = true := by
  cases h with
  | refused _ hover => exact ⟨rfl, hover⟩
  | givenUp _ _ _ hover => exact ⟨rfl, hover⟩
  | hungUp _ _ hover => exact ⟨rfl, hover⟩
  | completed _ hnot => exact absurd hcloses hnot

/-- A command on an open connection that does not close is completed, and the connection stays open. -/
theorem of_open (h : Way answer l t execution after) (hopen : isOver l.cell = false)
    (hcloses : ¬ t.Closes answer l) :
    execution.completion = .completed ∧ isOver after.cell = false := by
  cases h with
  | completed => exact ⟨rfl, hopen⟩
  | refused hclosed =>
    rcases hclosed with hover | ⟨e, hbefore⟩
    · exact absurd (hopen.symm.trans hover) Bool.false_ne_true
    · exact absurd (by simp [Turn.Closes, hbefore]) hcloses
  | givenUp _ hending hcalls => exact absurd (by simpa [Turn.Closes, hending] using hcalls) hcloses
  | hungUp _ hending => exact absurd (by simp [Turn.Closes, hending]) hcloses

end Way

end Ways

/-! ## Commands one after the other -/

/-- A command with its whole answer and what it came to. -/
structure Record where
  command : Command
  transcript : String
  execution : Execution

/-- The answers to the commands that were completed, one behind the other. -/
def written (records : List Record) : String :=
  String.join ((records.filter (·.execution.completion = .completed)).map (·.transcript))

section Run

variable (answer : (c : Call) → σ → c.Reply × σ) (giveUp : Call → σ → σ)

/-- Carries out commands one after the other. -/
def run : List Turn → Channel σ → List Record × Channel σ
  | [], l => ([], l)
  | t :: turns, l =>
    let done := l.execute answer giveUp t
    (⟨t.command, l.transcript answer t.command, done.1⟩ :: (run turns done.2).1, (run turns done.2).2)

variable {answer giveUp} {l : Channel σ}

theorem run_append (before after : List Turn) :
    run answer giveUp (before ++ after) l =
      ((run answer giveUp before l).1 ++ (run answer giveUp after (run answer giveUp before l).2).1,
        (run answer giveUp after (run answer giveUp before l).2).2) := by
  induction before generalizing l with
  | nil => rfl
  | cons t before ih =>
    rw [List.cons_append, run, ih]
    rfl

theorem outlet_run (hout : l.connection.outlet = .unlimited) (turns : List Turn) :
    (run answer giveUp turns l).2.connection.outlet = .unlimited := by
  induction turns generalizing l with
  | nil => exact hout
  | cons t turns ih => exact ih ((execute_way answer giveUp hout t).outlet hout)

/-- What is written on a connection is the answers to the commands that were completed. Induction on the
commands: each of them has written its whole answer or nothing. -/
theorem output_run (hout : l.connection.outlet = .unlimited) (turns : List Turn) :
    (run answer giveUp turns l).2.output = l.output ++ written (run answer giveUp turns l).1 := by
  induction turns generalizing l with
  | nil => simp [run, written]
  | cons t turns ih =>
    have hway := execute_way answer giveUp hout t
    rw [run]
    dsimp only
    rw [ih (hway.outlet hout)]
    rcases hway.all_or_nothing with ⟨hexecution, houtput⟩ | ⟨hexecution, houtput⟩
    · rw [hexecution, houtput, String.append_assoc]
      simp [written]
    · rw [hexecution, houtput]
      simp [written, Execution.abandoned]

theorem records_run (hout : l.connection.outlet = .unlimited) (turns : List Turn) :
    ∀ r ∈ (run answer giveUp turns l).1,
      (r.execution = ⟨.completed, r.transcript⟩ ∨ r.execution = .abandoned) ∧
      ∃ news line,
        r.transcript = String.join ((news ++ [.tagged line]).map fun sent => sent.render ++ "\r\n") ∧
        news.filterMap Response.tagged? = [] ∧ line.tag = r.command.tag := by
  induction turns generalizing l with
  | nil => simp [run]
  | cons t turns ih =>
    have hway := execute_way answer giveUp hout t
    refine List.forall_mem_cons.mpr ⟨⟨?_, ?_⟩, ih (hway.outlet hout)⟩
    · exact hway.all_or_nothing.imp And.left And.left
    · obtain ⟨news, line, hlines, hnews, htag, -⟩ :=
        t.command.runs_process l.connection.session answer l.state
      have hjoined := congrArg (fun lines => String.join (lines.map Response.wire)) hlines
      exact ⟨news, line, hjoined, hnews, htag⟩

/-- On a closed connection nothing is done any more. -/
theorem run_of_closed (hout : l.connection.outlet = .unlimited) (hover : isOver l.cell = true)
    (turns : List Turn) :
    (∀ r ∈ (run answer giveUp turns l).1, r.execution = .abandoned) ∧
      (run answer giveUp turns l).2.output = l.output ∧
      (run answer giveUp turns l).2.connection.session = l.connection.session ∧
      (run answer giveUp turns l).2.state = l.state := by
  induction turns generalizing l with
  | nil => exact ⟨by simp [run], rfl, rfl, rfl⟩
  | cons t turns ih =>
    have hway := execute_way answer giveUp hout t
    obtain ⟨hexecution, hstill, houtput, hsession, hstate⟩ := hway.of_closed (Or.inl hover)
    obtain ⟨hrest, houtput', hsession', hstate'⟩ := ih (hway.outlet hout) hstill
    exact ⟨List.forall_mem_cons.mpr ⟨hexecution, hrest⟩, houtput'.trans houtput, hsession'.trans hsession,
      hstate'.trans hstate⟩

/-- On a connection that does not close, every command is completed. -/
theorem run_of_open (hout : l.connection.outlet = .unlimited) (hopen : isOver l.cell = false)
    {turns : List Turn} (hnever : ∀ t ∈ turns, t.ending = none) :
    ∀ r ∈ (run answer giveUp turns l).1, r.execution.completion = .completed := by
  induction turns generalizing l with
  | nil => simp [run]
  | cons t turns ih =>
    obtain ⟨hhere, hlater⟩ := List.forall_mem_cons.mp hnever
    have hway := execute_way answer giveUp hout t
    obtain ⟨hexecution, hstill⟩ := hway.of_open hopen (by simp [Turn.Closes, hhere])
    exact List.forall_mem_cons.mpr ⟨hexecution, ih (hway.outlet hout) hstill hlater⟩

end Run

/-- **Closing a connection is all or nothing.** Take a connection whose output takes every write, any
commands on it, any store behind it, and a close at any moment of any of them. What has been written is
the answers to the commands that were completed, one behind the other: each of them whole, with all of its
lines and their line ends, the last of which is the one tagged line. A command that was abandoned has
written nothing. Without a close every command is completed. With a close, the command in which it takes
place is abandoned and so is every later one; nothing is written any more, and what comes after the moment
of the close leaves the session and the store as they are. -/
theorem closing_all_or_nothing (answer : (c : Call) → σ → c.Reply × σ) (giveUp : Call → σ → σ)
    (caller : Caller) (s : σ) (turns : List Turn) :
    let done := run answer giveUp turns (start caller s)
    done.2.output = written done.1 ∧
    (∀ r ∈ done.1, (r.execution = ⟨.completed, r.transcript⟩ ∨ r.execution = ⟨.abandoned, ""⟩) ∧
      ∃ news line,
        r.transcript = String.join ((news ++ [.tagged line]).map fun sent => sent.render ++ "\r\n") ∧
        news.filterMap Response.tagged? = [] ∧ line.tag = r.command.tag) ∧
    ((∀ t ∈ turns, t.ending = none) → ∀ r ∈ done.1, r.execution.completion = .completed) ∧
    ∀ before t after, turns = before ++ t :: after →
      let earlier := run answer giveUp before (start caller s)
      let closed := (earlier.2.execute answer giveUp t).2
      t.Closes answer earlier.2 →
      (∃ records, done.1 = earlier.1 ++ records ∧ ∀ r ∈ records, r.execution = ⟨.abandoned, ""⟩) ∧
      done.2.output = earlier.2.output ∧
      ((∃ e, t.ending = some (.before, e)) →
        closed.connection.session = earlier.2.connection.session ∧ closed.state = earlier.2.state) ∧
      done.2.connection.session = closed.connection.session ∧ done.2.state = closed.state := by
  intro done
  have hout : (start caller s).connection.outlet = .unlimited := rfl
  refine ⟨?_, records_run hout turns, run_of_open hout isOver_fresh, ?_⟩
  · rw [output_run hout]
    exact String.empty_append
  · rintro before t after rfl earlier closed hcloses
    have hway : Way answer earlier.2 t _ closed := execute_way answer giveUp (outlet_run hout before) t
    obtain ⟨habandoned, hover⟩ := hway.of_closes hcloses
    have hsame : closed.output = earlier.2.output := by
      rcases hway.all_or_nothing with ⟨hcompleted, -⟩ | ⟨-, houtput⟩
      · cases hcompleted.symm.trans habandoned
      · exact houtput
    obtain ⟨hlater, houtput, hsession, hstate⟩ :=
      run_of_closed (hway.outlet (outlet_run hout before)) hover after
    have hdone : done = (earlier.1 ++ (run answer giveUp (t :: after) earlier.2).1,
        (run answer giveUp (t :: after) earlier.2).2) := run_append before (t :: after)
    rw [hdone]
    refine ⟨⟨_, rfl, List.forall_mem_cons.mpr ⟨habandoned, hlater⟩⟩, houtput.trans hsame, ?_, hsession,
      hstate⟩
    exact fun hbefore => (hway.of_closed (Or.inr hbefore)).2.2.2

/-- The handle is given up while the second command looks at the selected mailbox, behind its creation. -/
example :
    let turns : List Turn := [⟨⟨"a1", .create, "INBOX"⟩, none⟩, ⟨⟨"a2", .select, "INBOX"⟩, none⟩,
      ⟨⟨"a3", .create, "Work"⟩, some (.pending 1, .release)⟩, ⟨⟨"a4", .create, "Home"⟩, none⟩]
    let done := run Service.Backend.answer (fun _ b => b) turns (start ⟨"ann", '.'⟩ (.empty 255 '.'))
    done.1.map (·.execution.completion) = [.completed, .completed, .abandoned, .abandoned] ∧
      done.2.state.store.contains ⟨"ann", "Work"⟩ = true ∧
      done.2.state.store.contains ⟨"ann", "Home"⟩ = false := by
  decide +kernel

end Channel

end Imap

end MailServer
