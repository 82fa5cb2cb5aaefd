import MailServer.Closing

/-!
# Asking for a close and waiting for it

A signal asks by the value in the cell and by the handle, and waits by the version that it has seen. The two
agree all the same. A wait begins with a look at the cell, so what the signal had seen before does not count;
and a wait that goes on is woken by every close, as an announcement makes a new version.

* `Signal.resume`, `Signal.poll_eq_resume` — a wait as its first look and what goes on behind it.
* `Signal.poll_eq`, `Signal.resume_eq` — when a wait is over, at once or later.
* `Act.Closes`, `Party.run` — the acts that close, and a connection after any acts.
* `Party.ended_run` — the connection is over once an act has closed it.
* `Party.views_agree` — both views of every signal, at every point.
-/

namespace MailServer.Closing

/-! ## The cell -/

namespace Cell

/-- The close has been announced, or it can no longer be announced. -/
def ended (c : Cell) : Bool := c.announced || !c.held

/-- The cell after some time: without a new version there is no announcement. -/
def Later (c c' : Cell) : Prop := c'.version = c.version → c'.announced = c.announced

theorem ended_close (c : Cell) : c.close.ended = true := by
  unfold close
  split
  · rfl
  · rename_i hheld
    rw [ended, Bool.eq_false_iff.mpr hheld, Bool.not_false, Bool.or_true]

theorem ended_release (c : Cell) : c.release.ended = true := Bool.or_true c.announced

theorem close_cases (c : Cell) : c.close = c ∨ c.close.version = c.version + 1 := by
  unfold close
  split
  · exact Or.inr rfl
  · exact Or.inl rfl

end Cell

/-! ## A wait -/

namespace Signal

variable {s : Signal} {c : Cell}

/-- The rest of a wait that has looked at the cell and was not over: it looks again when there is a version
that the signal has not seen. -/
def resume (s : Signal) (c : Cell) : Bool × Signal :=
  match s.changed c with
  | .newer => s.poll c
  | .gone => (true, s)
  | .pending => (false, s)

theorem poll_eq_resume (s : Signal) (c : Cell) :
    s.poll c = if c.announced then (true, s.catchUp c) else (s.catchUp c).resume c := by
  rw [poll]
  split
  · rfl
  · rw [resume]
    split <;> rename_i hchanged <;> rw [hchanged]

theorem changed_of_seen (h : s.seen = c.version) : s.changed c = if c.held then .pending else .gone :=
  if_neg fun hne => hne h

/-- Where the signal has seen the version, only the handle counts. -/
theorem resume_of_seen (h : s.seen = c.version) : s.resume c = (!c.held, s) := by
  rw [resume, changed_of_seen h]
  cases c.held <;> rfl

/-- A wait is over at once just where the connection is. -/
theorem poll_eq (s : Signal) (c : Cell) : s.poll c = (c.ended, s.catchUp c) := by
  rw [poll_eq_resume, resume_of_seen rfl, Cell.ended]
  cases c.announced <;> rfl

/-- A wait that goes on is over as soon as the connection is. -/
theorem resume_eq {c' : Cell} (hseen : s.seen = c.version) (hpending : c.announced = false)
    (h : c.Later c') : (s.resume c').1 = c'.ended := by
  by_cases hversion : c'.version = c.version
  · rw [resume_of_seen (hseen.trans hversion.symm), Cell.ended, h hversion, hpending, Bool.false_or]
  · have hnewer : s.changed c' = .newer := if_pos fun heq => hversion (heq.symm.trans hseen)
    rw [resume, hnewer]
    exact congrArg Prod.fst (s.poll_eq c')

end Signal

/-! ## A connection -/

/-- The act closes the connection. -/
def Act.Closes (a : Act) : Prop := a = .close ∨ a = .release

instance (a : Act) : Decidable a.Closes := inferInstanceAs (Decidable (a = .close ∨ a = .release))

namespace Party

variable {p : Party} {s : Signal} {i : Nat}

/-- The connection after the acts, one after the other. -/
def run (p : Party) (acts : List Act) : Party := acts.foldl (fun p a => (p.perform a).2) p

/-- An act leaves the cell alone, or it closes. -/
theorem cell_perform (p : Party) (a : Act) :
    (¬ a.Closes ∧ (p.perform a).2.cell = p.cell) ∨
    (a.Closes ∧ ((p.perform a).2.cell = p.cell.close ∨ (p.perform a).2.cell = p.cell.release)) := by
  cases a with
  | close => exact Or.inr ⟨Or.inl rfl, Or.inl rfl⟩
  | release => exact Or.inr ⟨Or.inr rfl, Or.inr rfl⟩
  | subscribe =>
    refine Or.inl ⟨by decide, ?_⟩
    rw [perform]
    split <;> rfl
  | clone i | isClosed i | poll i =>
    refine Or.inl ⟨by simp [Act.Closes], ?_⟩
    rw [perform]
    split <;> rfl

/-- An act of any kind keeps the signals that are there. -/
theorem length_perform (p : Party) (a : Act) : p.signals.length ≤ (p.perform a).2.signals.length := by
  cases a with
  | close | release => exact Nat.le_refl _
  | subscribe =>
    rw [perform]
    split
    · simp [join]
    · exact Nat.le_refl _
  | clone i | isClosed i | poll i =>
    rw [perform]
    split
    · simp [join]
    · exact Nat.le_refl _

theorem ended_perform (p : Party) (a : Act) :
    (p.perform a).2.cell.ended = (p.cell.ended || decide a.Closes) := by
  rcases p.cell_perform a with ⟨hopen, hcell⟩ | ⟨hcloses, hcell | hcell⟩
  · rw [hcell, decide_eq_false hopen, Bool.or_false]
  · rw [hcell, Cell.ended_close, decide_eq_true hcloses, Bool.or_true]
  · rw [hcell, Cell.ended_release, decide_eq_true hcloses, Bool.or_true]

/-- The connection is over once an act has closed it. Induction on the acts. -/
theorem ended_run (p : Party) (acts : List Act) :
    (p.run acts).cell.ended = (p.cell.ended || acts.any fun a => decide a.Closes) := by
  induction acts generalizing p with
  | nil => exact (Bool.or_false _).symm
  | cons a acts ih =>
    have hrun : p.run (a :: acts) = (p.perform a).2.run acts := rfl
    rw [hrun, ih, ended_perform, List.any_cons, Bool.or_assoc]

theorem later_perform (p : Party) (a : Act) :
    p.cell.version ≤ (p.perform a).2.cell.version ∧ p.cell.Later (p.perform a).2.cell := by
  rcases p.cell_perform a with ⟨-, hcell⟩ | ⟨-, hcell | hcell⟩
  · rw [hcell]
    exact ⟨Nat.le_refl _, fun _ => rfl⟩
  · rw [hcell]
    rcases p.cell.close_cases with hclose | hclose
    · rw [hclose]
      exact ⟨Nat.le_refl _, fun _ => rfl⟩
    · exact ⟨by omega, fun hsame => by omega⟩
  · rw [hcell]
    exact ⟨Nat.le_refl _, fun _ => rfl⟩

/-- Versions grow, and there is no announcement without a new one. Induction on the acts. -/
theorem later_run (p : Party) (acts : List Act) :
    p.cell.version ≤ (p.run acts).cell.version ∧ p.cell.Later (p.run acts).cell := by
  induction acts generalizing p with
  | nil => exact ⟨Nat.le_refl _, fun _ => rfl⟩
  | cons a acts ih =>
    obtain ⟨hfirst, hlater⟩ := p.later_perform a
    obtain ⟨hrest, hlater'⟩ := ih (p.perform a).2
    refine ⟨Nat.le_trans hfirst hrest, fun hsame => ?_⟩
    -- a version that is the same in the end has been the same all the time
    have hrun : p.run (a :: acts) = (p.perform a).2.run acts := rfl
    rw [hrun] at hsame ⊢
    rw [hlater' (by omega), hlater (by omega)]

theorem length_run (p : Party) (acts : List Act) : p.signals.length ≤ (p.run acts).signals.length := by
  induction acts generalizing p with
  | nil => exact Nat.le_refl _
  | cons a acts ih => exact Nat.le_trans (p.length_perform a) (ih _)

theorem run_append (p : Party) (acts later : List Act) : p.run (acts ++ later) = (p.run acts).run later :=
  List.foldl_append

theorem perform_isClosed (h : p.signals[i]? = some s) : p.perform (.isClosed i) = (.closed p.cell.ended, p) := by
  rw [perform, h]
  rfl

theorem perform_poll (h : p.signals[i]? = some s) :
    p.perform (.poll i) =
      (.resolved p.cell.ended, { p with signals := p.signals.set i (s.catchUp p.cell) }) := by
  rw [perform, h]
  dsimp only
  rw [s.poll_eq]

/-- **Asking and waiting agree.** At every point of a connection, every signal on it says that the connection
has closed just where the handle has closed it or has been given up, and a wait is over at once just where the
signal says so; both stay so from then on, for the signals of that time and for those that come later. A wait
that was not over is over, when it goes on, as soon as the connection has closed. There always is a signal. -/
theorem views_agree (acts : List Act) :
    let p := start.run acts
    p.signals ≠ [] ∧
    (∀ s ∈ p.signals, (s.isClosed p.cell = true ↔ ∃ a ∈ acts, a.Closes) ∧
      ((s.poll p.cell).1 = true ↔ s.isClosed p.cell = true)) ∧
    (∀ i < p.signals.length, ∃ closed : Bool, (closed = true ↔ ∃ a ∈ acts, a.Closes) ∧
      p.perform (.isClosed i) = (.closed closed, p) ∧ (p.perform (.poll i)).1 = .resolved closed) ∧
    (∀ later, ∀ s ∈ p.signals, ∀ s' ∈ (start.run (acts ++ later)).signals, s.isClosed p.cell = true →
      s'.isClosed (start.run (acts ++ later)).cell = true ∧
      (s'.poll (start.run (acts ++ later)).cell).1 = true) ∧
    (∀ later, ∀ s ∈ p.signals, (s.poll p.cell).1 = false →
      (((s.poll p.cell).2.resume (p.run later).cell).1 = true ↔ ∃ a ∈ later, a.Closes)) := by
  intro p
  have hended : ∀ acts : List Act, (start.run acts).cell.ended = true ↔ ∃ a ∈ acts, a.Closes := by
    intro acts
    have hopen : start.cell.ended = false := rfl
    rw [ended_run, hopen, Bool.false_or, List.any_eq_true]
    simp only [decide_eq_true_eq]
  refine ⟨?_, fun s _ => ⟨hended acts, ?_⟩, ?_, ?_, ?_⟩
  · have hlength : 1 ≤ p.signals.length := start.length_run acts
    exact List.ne_nil_of_length_pos hlength
  · rw [s.poll_eq]
    exact Iff.rfl
  · intro i hi
    have hs : p.signals[i]? = some p.signals[i] := List.getElem?_eq_getElem hi
    exact ⟨p.cell.ended, hended acts, perform_isClosed hs, congrArg Prod.fst (perform_poll hs)⟩
  · intro later s _ s' _ hclosed
    obtain ⟨a, ha, hcloses⟩ := (hended acts).mp hclosed
    have hlater : (start.run (acts ++ later)).cell.ended = true :=
      (hended _).mpr ⟨a, List.mem_append_left later ha, hcloses⟩
    exact ⟨hlater, by rw [s'.poll_eq]; exact hlater⟩
  · intro later s _ hpending
    rw [s.poll_eq] at hpending ⊢
    have hopen : p.cell.ended = false := hpending
    obtain ⟨hannounced, -⟩ := Bool.or_eq_false_iff.mp hopen
    rw [Signal.resume_eq rfl hannounced (p.later_run later).2, ended_run, hopen, Bool.false_or,
      List.any_eq_true]
    simp only [decide_eq_true_eq]

/-- A signal that was copied from one that had waited, before and after the close. -/
theorem views_agree_copied :
    let acts := [Act.subscribe, .poll 1, .clone 1]
    let p := start.run acts
    let ended := start.run (acts ++ [.isClosed 2, .close, .release])
    let s : Signal := ⟨0⟩
    s ∈ p.signals ∧ p.perform (.isClosed 2) = (.closed false, p) ∧
    (p.perform (.poll 2)).1 = .resolved false ∧
    ((s.poll p.cell).2.resume (p.run [.isClosed 2, .close]).cell).1 = true ∧
    s ∈ ended.signals ∧ s.isClosed ended.cell = true ∧ (s.poll ended.cell).1 = true := by
  intro acts p ended s
  obtain ⟨-, hviews, hanswers, -, hgoes⟩ := views_agree acts
  obtain ⟨-, hendedViews, -⟩ := views_agree (acts ++ [.isClosed 2, .close, .release])
  have hp : p = ⟨.fresh, [s, s, s]⟩ := by
    simp [p, acts, s, run, start, perform, join, Signal.poll_eq, Signal.subscribe, Signal.catchUp, Cell.fresh]
  have hended : ended.signals = [s, s, s] := by
    have hrun : ended = p.run [.isClosed 2, .close, .release] := run_append start acts _
    rw [hrun, hp]
    rfl
  have hs : s ∈ p.signals := hp ▸ List.mem_cons_self
  have hs' : s ∈ ended.signals := hended ▸ List.mem_cons_self
  have hcount : 2 < p.signals.length := by
    rw [hp]
    decide
  have hopen : ¬ ∃ a ∈ acts, a.Closes := by decide
  obtain ⟨hasked, hwaited⟩ := hviews s hs
  have hpending : (s.poll p.cell).1 = false :=
    Bool.eq_false_iff.mpr fun hdone => hopen (hasked.mp (hwaited.mp hdone))
  obtain ⟨answer, hanswer, hsays, hfinds⟩ := hanswers 2 hcount
  obtain rfl : answer = false := Bool.eq_false_iff.mpr (mt hanswer.mp hopen)
  obtain ⟨hasked', hwaited'⟩ := hendedViews s hs'
  have hclosed : s.isClosed ended.cell = true := hasked'.mpr (by decide)
  exact ⟨hs, hsays, hfinds, (hgoes _ s hs hpending).mpr (by decide), hs', hclosed, hwaited'.mpr hclosed⟩

end Party

end MailServer.Closing
