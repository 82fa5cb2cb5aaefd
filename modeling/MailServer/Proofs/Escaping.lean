import Mathlib.Data.List.Infix
import MailServer.Proofs.Spot

/-!
# Escaping raw control bytes

The pass over a body replaces the control bytes that stand in a string literal as they are, and nothing else.
Where a literal begins and ends is told by its grammar, without the states of the pass: a literal is opened
by a quote and closed by the next one that does not belong to an escape, and an escape is a backslash with
the byte behind it.

* `Contents`, `Balanced`, `InLiteral`, `Raw` — the grammar, and the bytes to be replaced.
* `standing_cases` — the states of the pass are the places that the grammar tells apart.
* `escapeControls_eq_flatMap`, `length_escapeControls` — what becomes of each byte.
* `escapeFrom_escapeFrom` — a second pass comes back to the same states and finds nothing to do.
* `Pass.run_behind` — a pass with two flags that copies no byte before the first one that it replaces.
* `escapeControls_minimal` — all of this for every body.
-/

namespace MailServer.Jmap

open Json (standing)

/-! ## Literals -/

/-- Whole items of a literal: bytes that are neither quote nor backslash, and escapes. -/
inductive Contents : List UInt8 → Prop
  | nil : Contents []
  | plain {b : UInt8} {rest : List UInt8} (hquote : b ≠ 0x22) (hslash : b ≠ 0x5C) (h : Contents rest) :
      Contents (b :: rest)
  | escape (b : UInt8) {rest : List UInt8} (h : Contents rest) : Contents (0x5C :: b :: rest)

/-- Whole literals among bytes that are no quotes. -/
inductive Balanced : List UInt8 → Prop
  | nil : Balanced []
  | plain {b : UInt8} {rest : List UInt8} (hquote : b ≠ 0x22) (h : Balanced rest) : Balanced (b :: rest)
  | literal {c rest : List UInt8} (hc : Contents c) (h : Balanced rest) :
      Balanced (0x22 :: (c ++ 0x22 :: rest))

/-- Behind `x` a literal goes on, and not in the middle of an escape. -/
def InLiteral (x : List UInt8) : Prop := ∃ y c, Balanced y ∧ Contents c ∧ x = y ++ 0x22 :: c

/-- Behind `x` the second byte of an escape follows. -/
def InEscape (x : List UInt8) : Prop := ∃ z, InLiteral z ∧ x = z ++ [0x5C]

theorem Contents.append {c e : List UInt8} (hc : Contents c) (he : Contents e) : Contents (c ++ e) := by
  induction hc with
  | nil => exact he
  | plain hquote hslash _ ih => exact .plain hquote hslash ih
  | escape b _ ih => exact .escape b ih

theorem Balanced.append {x y : List UInt8} (hx : Balanced x) (hy : Balanced y) : Balanced (x ++ y) := by
  induction hx with
  | nil => exact hy
  | plain hquote _ ih => exact .plain hquote ih
  | literal hc _ ih =>
    rw [List.cons_append, List.append_assoc, List.cons_append]
    exact .literal hc ih

/-! ## The states of the pass -/

theorem standing_append (x y : List UInt8) : standing (x ++ y) = y.foldl Quoting.next (standing x) :=
  List.foldl_append

theorem standing_concat (x : List UInt8) (b : UInt8) : standing (x ++ [b]) = (standing x).next b := by
  rw [standing_append]
  rfl

theorem Quoting.next_inside {b : UInt8} (hquote : b ≠ 0x22) (hslash : b ≠ 0x5C) : inside.next b = inside := by
  rw [next, if_neg hslash, if_neg hquote]

/-- A control byte is neither a quote nor a backslash. -/
theorem Quoting.next_control {b : UInt8} (h : b < 0x20) : inside.next b = inside :=
  next_inside (Json.ne_of_control h (by decide)) (Json.ne_of_control h (by decide))

theorem Contents.foldl_next {c : List UInt8} (h : Contents c) : c.foldl Quoting.next .inside = .inside := by
  induction h with
  | nil => rfl
  | plain hquote hslash _ ih =>
    rw [List.foldl_cons, Quoting.next_inside hquote hslash]
    exact ih
  | escape b _ ih => exact ih

theorem Balanced.foldl_next {x : List UInt8} (h : Balanced x) : x.foldl Quoting.next .outside = .outside := by
  induction h with
  | nil => rfl
  | plain hquote _ ih =>
    rw [List.foldl_cons, Quoting.next, if_neg hquote]
    exact ih
  | literal hc _ ih =>
    show ((_ ++ 0x22 :: _ : List UInt8).foldl Quoting.next .inside) = _
    rw [List.foldl_append, hc.foldl_next]
    exact ih

theorem InLiteral.standing_eq {x : List UInt8} (h : InLiteral x) : standing x = .inside := by
  obtain ⟨y, c, hy, hc, rfl⟩ := h
  have hopen : standing y = .outside := hy.foldl_next
  rw [standing_append, hopen]
  exact hc.foldl_next

theorem InEscape.standing_eq {x : List UInt8} (h : InEscape x) : standing x = .escaped := by
  obtain ⟨z, hz, rfl⟩ := h
  rw [standing_concat, hz.standing_eq]
  rfl

/-- **The states of the pass** are the places that the grammar tells apart. Induction on the bytes, the last
one taken apart. -/
theorem standing_cases (x : List UInt8) : Balanced x ∨ InLiteral x ∨ InEscape x := by
  induction x using List.reverseRecOn with
  | nil => exact Or.inl .nil
  | append_singleton x b ih =>
    rcases ih with hx | ⟨y, c, hy, hc, rfl⟩ | ⟨z, ⟨y, c, hy, hc, rfl⟩, rfl⟩
    -- outside, a quote opens a literal
    · by_cases hquote : b = 0x22
      · subst hquote
        exact Or.inr (Or.inl ⟨x, [], hx, .nil, rfl⟩)
      · exact Or.inl (hx.append (.plain hquote .nil))
    -- inside, a quote closes it and a backslash begins an escape
    · by_cases hquote : b = 0x22
      · subst hquote
        refine Or.inl ?_
        rw [List.append_assoc]
        exact hy.append (.literal hc .nil)
      by_cases hslash : b = 0x5C
      · subst hslash
        exact Or.inr (Or.inr ⟨_, ⟨y, c, hy, hc, rfl⟩, rfl⟩)
      · refine Or.inr (Or.inl ⟨y, c ++ [b], hy, hc.append (.plain hquote hslash .nil), ?_⟩)
        simp
    -- behind the backslash any byte ends the escape
    · refine Or.inr (Or.inl ⟨y, c ++ [0x5C, b], hy, hc.append (.escape b .nil), ?_⟩)
      simp

theorem standing_eq_outside_iff {x : List UInt8} : standing x = .outside ↔ Balanced x := by
  refine ⟨fun h => ?_, Balanced.foldl_next⟩
  rcases standing_cases x with hx | hx | hx
  · exact hx
  · rw [hx.standing_eq] at h
    cases h
  · rw [hx.standing_eq] at h
    cases h

theorem standing_eq_inside_iff {x : List UInt8} : standing x = .inside ↔ InLiteral x := by
  refine ⟨fun h => ?_, InLiteral.standing_eq⟩
  rcases standing_cases x with hx | hx | hx
  · cases hx.foldl_next.symm.trans h
  · exact hx
  · rw [hx.standing_eq] at h
    cases h

/-- The byte `b` behind `x` is a control byte that stands in a literal as it is, and not behind a backslash
that begins an escape. -/
def Raw (x : List UInt8) (b : UInt8) : Prop := b < 0x20 ∧ InLiteral x

theorem raw_iff {x : List UInt8} {b : UInt8} : Raw x b ↔ standing x = .inside ∧ b < 0x20 := by
  rw [standing_eq_inside_iff]
  exact and_comm

instance (x : List UInt8) (b : UInt8) : Decidable (Raw x b) := decidable_of_iff' _ raw_iff

/-! ## What becomes of each byte -/

/-- What is written for the byte `b` at a place. -/
def Quoting.written (q : Quoting) (b : UInt8) : List UInt8 :=
  if q = .inside ∧ b < 0x20 then escapeOf b else [b]

/-- One byte. The states go on behind a raw control byte as well: it leaves them where they are. -/
theorem escapeFrom_cons (q : Quoting) (b : UInt8) (s : List UInt8) :
    escapeFrom q (b :: s) = q.written b ++ escapeFrom (q.next b) s := by
  rw [escapeFrom, Quoting.written]
  split
  · rename_i hraw
    obtain ⟨rfl, hb⟩ := hraw
    rw [Quoting.next_control hb]
  · rfl

theorem escapeFrom_append (q : Quoting) (s t : List UInt8) :
    escapeFrom q (s ++ t) = escapeFrom q s ++ escapeFrom (s.foldl Quoting.next q) t := by
  induction s generalizing q with
  | nil => rfl
  | cons b s ih => rw [List.cons_append, escapeFrom_cons, escapeFrom_cons, ih, List.foldl_cons, List.append_assoc]

/-- Each byte with those before it. -/
def placed (body : List UInt8) : List (List UInt8 × UInt8) := body.inits.zip body

theorem placed_cons (b : UInt8) (s : List UInt8) :
    placed (b :: s) = ([], b) :: (placed s).map (Prod.map (b :: ·) id) := by
  rw [placed, List.inits_cons, List.zip_cons_cons, List.zip_map_left]
  rfl

theorem length_placed (s : List UInt8) : (placed s).length = s.length := by
  rw [placed, List.length_zip, List.length_inits]
  omega

theorem mem_placed_iff {s x : List UInt8} {b : UInt8} : (x, b) ∈ placed s ↔ ∃ y, s = x ++ b :: y := by
  induction s generalizing x with
  | nil => simp [placed]
  | cons a s ih =>
    rw [placed_cons, List.mem_cons, List.mem_map]
    cases x with
    | nil => simp [eq_comm]
    | cons c x => simp [ih, and_comm]

theorem escapeFrom_eq_flatMap (q : Quoting) (s : List UInt8) :
    escapeFrom q s = (placed s).flatMap fun p => (p.1.foldl Quoting.next q).written p.2 := by
  induction s generalizing q with
  | nil => rfl
  | cons b s ih =>
    rw [placed_cons, List.flatMap_cons, List.flatMap_map, escapeFrom_cons, ih]
    rfl

theorem written_standing (x : List UInt8) (b : UInt8) :
    (standing x).written b = if Raw x b then escapeOf b else [b] := by
  simp only [Quoting.written, raw_iff]

/-- **Each byte** is copied or, where it is a raw control byte, replaced. -/
theorem escapeControls_eq_flatMap (body : List UInt8) :
    escapeControls body = (placed body).flatMap fun p => if Raw p.1 p.2 then escapeOf p.2 else [p.2] := by
  simp only [← written_standing]
  exact escapeFrom_eq_flatMap .outside body

theorem length_escapeControls (body : List UInt8) :
    (escapeControls body).length = body.length + 5 * (placed body).countP fun p => Raw p.1 p.2 := by
  rw [escapeControls_eq_flatMap, ← length_placed body]
  induction placed body with
  | nil => rfl
  | cons p rest ih =>
    rw [List.flatMap_cons, List.length_append, ih, List.length_cons, List.countP_cons]
    by_cases hraw : Raw p.1 p.2
    · simp only [hraw, decide_true, if_true, escapeOf, List.length_cons, List.length_nil]
      omega
    · simp only [hraw, decide_false, if_false, List.length_singleton, Bool.false_eq_true]
      omega

theorem escapeControls_ne_iff {body : List UInt8} :
    escapeControls body ≠ body ↔ ∃ x b y, body = x ++ b :: y ∧ Raw x b := by
  constructor
  · intro hne
    by_contra hnone
    refine hne ?_
    have hcopy : ∀ p ∈ placed body, (if Raw p.1 p.2 then escapeOf p.2 else [p.2]) = [p.2] := by
      intro p hp
      obtain ⟨y, hy⟩ := mem_placed_iff.mp hp
      exact if_neg fun hraw => hnone ⟨p.1, p.2, y, hy, hraw⟩
    rw [escapeControls_eq_flatMap, List.flatMap_congr hcopy, ← List.map_eq_flatMap, placed]
    exact List.map_snd_zip (by simp)
  · rintro ⟨x, b, y, hbody, hraw⟩ heq
    have hlength := length_escapeControls body
    have hpos : 0 < (placed body).countP fun p => Raw p.1 p.2 :=
      List.countP_pos_iff.mpr ⟨(x, b), mem_placed_iff.mpr ⟨y, hbody⟩, decide_eq_true hraw⟩
    rw [heq] at hlength
    omega

/-- The escape of a byte is its number in four hexadecimal digits of lower case, behind a backslash and `u`. -/
theorem escapeOf_eq {b : UInt8} (h : b < 0x20) :
    escapeOf b = ('\\' :: 'u' :: (Nat.toDigits 16 b.toNat).leftpad 4 '0').map Json.byte := by
  have hall : ∀ n : Fin 32, escapeOf (UInt8.ofNat n) =
      ('\\' :: 'u' :: (Nat.toDigits 16 n).leftpad 4 '0').map Json.byte := by decide
  simpa using hall ⟨b.toNat, UInt8.lt_iff_toNat_lt.mp h⟩

/-! ## A second pass -/

/-- What is written for a byte leads a second pass from the place of the byte to the place behind it, and it
is written as it is. -/
theorem escapeFrom_written (q : Quoting) (b : UInt8) :
    (q.written b).foldl Quoting.next q = q.next b ∧ escapeFrom q (q.written b) = q.written b := by
  have hall : ∀ n : Fin 32, (escapeOf (UInt8.ofNat n)).foldl Quoting.next .inside = .inside ∧
      escapeFrom .inside (escapeOf (UInt8.ofNat n)) = escapeOf (UInt8.ofNat n) := by decide
  by_cases hraw : q = .inside ∧ b < 0x20
  · obtain ⟨rfl, hb⟩ := hraw
    rw [Quoting.written, if_pos ⟨rfl, hb⟩, Quoting.next_control hb]
    simpa using hall ⟨b.toNat, UInt8.lt_iff_toNat_lt.mp hb⟩
  · rw [Quoting.written, if_neg hraw]
    refine ⟨rfl, ?_⟩
    rw [escapeFrom, if_neg hraw]
    rfl

/-- **A second pass** changes nothing, from any place on. -/
theorem escapeFrom_escapeFrom (q : Quoting) (s : List UInt8) :
    escapeFrom q (escapeFrom q s) = escapeFrom q s := by
  induction s generalizing q with
  | nil => rfl
  | cons b s ih =>
    obtain ⟨hnext, hsame⟩ := escapeFrom_written q b
    rw [escapeFrom_cons, escapeFrom_append, hnext, hsame, ih]

/-! ## Copying late -/

/-- What a pass keeps that copies as little as it can: two flags, and a copy of what it has seen once it has
replaced a byte. -/
structure Pass where
  inString : Bool
  afterBackslash : Bool
  copy : Option (List UInt8)
deriving DecidableEq

namespace Pass

/-- The pass at the start of a body. -/
def start : Pass := ⟨false, false, none⟩

/-- One byte behind those that have been seen. A byte that is replaced leaves the flags alone. -/
def step (seen : List UInt8) (p : Pass) (b : UInt8) : Pass :=
  if p.inString && !p.afterBackslash && b < 0x20 then
    { p with copy := some (p.copy.getD seen ++ escapeOf b) }
  else
    let copy := p.copy.map (· ++ [b])
    if !p.inString then { p with inString := b == 0x22, copy }
    else if p.afterBackslash then { p with afterBackslash := false, copy }
    else if b == 0x5C then { p with afterBackslash := true, copy }
    else if b == 0x22 then { p with inString := false, copy }
    else { p with copy }

/-- The pass over bytes behind those that have been seen. -/
def run (seen : List UInt8) (p : Pass) : List UInt8 → Pass
  | [] => p
  | b :: rest => run (seen ++ [b]) (p.step seen b) rest

/-- The pass behind the bytes `seen`. -/
def behind (seen : List UInt8) : Pass where
  inString := standing seen != .outside
  afterBackslash := standing seen == .escaped
  copy := if escapeControls seen = seen then none else some (escapeControls seen)

theorem escapeControls_concat (seen : List UInt8) (b : UInt8) :
    escapeControls (seen ++ [b]) = escapeControls seen ++ (standing seen).written b := by
  rw [escapeControls, escapeFrom_append, escapeFrom_cons, escapeFrom, List.append_nil]
  rfl

theorem getD_copy (seen : List UInt8) : (behind seen).copy.getD seen = escapeControls seen := by
  unfold behind
  by_cases h : escapeControls seen = seen
  · simp [h]
  · simp [h]

/-- The copy is made at the first byte that is replaced, and goes on from there. -/
theorem copy_behind_concat (seen : List UInt8) (b : UInt8) :
    (behind (seen ++ [b])).copy =
      if standing seen = .inside ∧ b < 0x20 then some (escapeControls seen ++ escapeOf b)
      else (behind seen).copy.map (· ++ [b]) := by
  unfold behind
  dsimp only
  rw [escapeControls_concat, Quoting.written]
  by_cases hraw : standing seen = .inside ∧ b < 0x20
  · -- with the escape of a byte there are more bytes than were seen
    have hlonger : escapeControls seen ++ escapeOf b ≠ seen ++ [b] := by
      intro hsame
      have hlength := congrArg List.length hsame
      rw [List.length_append, List.length_append, length_escapeControls] at hlength
      simp only [escapeOf, List.length_cons, List.length_nil] at hlength
      omega
    rw [if_pos hraw, if_pos hraw, if_neg hlonger]
  · rw [if_neg hraw, if_neg hraw]
    by_cases hsame : escapeControls seen = seen
    · simp [hsame]
    · simp [hsame]

/-- **One byte.** The flags follow the states. -/
theorem step_behind (seen : List UInt8) (b : UInt8) : (behind seen).step seen b = behind (seen ++ [b]) := by
  have hnow : behind seen = ⟨standing seen != .outside, standing seen == .escaped, (behind seen).copy⟩ := rfl
  have hnext : behind (seen ++ [b]) = ⟨(standing seen).next b != .outside, (standing seen).next b == .escaped,
      (behind (seen ++ [b])).copy⟩ := by
    rw [← standing_concat]
    rfl
  -- what the flags are does not depend on the copy, and the copy has been followed above
  rw [hnext, copy_behind_concat, ← getD_copy, hnow]
  generalize (behind seen).copy = copy
  cases standing seen with
  | outside =>
    by_cases hquote : b = 0x22
    · simp [step, Quoting.next, hquote]
    · simp [step, Quoting.next, hquote]
  | inside =>
    by_cases hcontrol : b < 0x20
    · rw [Quoting.next_control hcontrol]
      simp [step, hcontrol]
    by_cases hslash : b = 0x5C
    · subst hslash
      rfl
    by_cases hquote : b = 0x22
    · subst hquote
      rfl
    · rw [Quoting.next_inside hquote hslash]
      simp [step, hcontrol, hslash, hquote]
  | escaped => rfl

/-- **The pass** over a body comes to the state and to the bytes that are written, and has a copy of them only
where they differ from the body. -/
theorem run_behind (seen s : List UInt8) : (behind seen).run seen s = behind (seen ++ s) := by
  induction s generalizing seen with
  | nil => rw [run, List.append_nil]
  | cons b s ih => rw [run, step_behind, ih, List.append_assoc, List.singleton_append]

theorem run_start (body : List UInt8) : start.run [] body = behind body := run_behind [] body

theorem inString_eq_false_iff {body : List UInt8} : (start.run [] body).inString = false ↔ Balanced body := by
  rw [run_start, ← standing_eq_outside_iff]
  simp [behind]

end Pass

/-! ## Every body -/

/-- **Escaping is idempotent and minimal.** The bytes that are written are the copy that the pass has made,
or the body itself where it has made none, which is where nothing has to be replaced. A second pass changes
nothing. A body is changed exactly where a control byte stands in a literal and not behind a backslash. Each
such byte is replaced by its escape, and each other byte is copied, in its place; so there are five more bytes
for each that is replaced. Where a pass over the first part of a body ends outside of literals, the two parts
are escaped one by one. -/
theorem escapeControls_minimal (body : List UInt8) :
    ((Pass.start.run [] body).copy.getD body = escapeControls body ∧
      ((Pass.start.run [] body).copy = none ↔ escapeControls body = body)) ∧
    escapeControls (escapeControls body) = escapeControls body ∧
    (escapeControls body ≠ body ↔ ∃ x b y, body = x ++ b :: y ∧ Raw x b) ∧
    escapeControls body = (placed body).flatMap (fun p => if Raw p.1 p.2 then escapeOf p.2 else [p.2]) ∧
    (∀ b < 0x20, escapeOf b = ('\\' :: 'u' :: (Nat.toDigits 16 b.toNat).leftpad 4 '0').map Json.byte ∧
      (escapeOf b).length = 6) ∧
    (escapeControls body).length = body.length + 5 * (placed body).countP (fun p => Raw p.1 p.2) ∧
    ∀ x y, body = x ++ y → (Pass.start.run [] x).inString = false →
      escapeControls body = escapeControls x ++ escapeControls y := by
  refine ⟨?_, escapeFrom_escapeFrom .outside body, escapeControls_ne_iff, escapeControls_eq_flatMap body, ?_,
    length_escapeControls body, ?_⟩
  · rw [Pass.run_start]
    exact ⟨Pass.getD_copy body, by simp [Pass.behind]⟩
  · intro b hb
    exact ⟨escapeOf_eq hb, rfl⟩
  · rintro x y rfl houtside
    have hstanding : standing x = .outside :=
      standing_eq_outside_iff.mpr (Pass.inString_eq_false_iff.mp houtside)
    rw [escapeControls, escapeFrom_append]
    show _ ++ escapeFrom (standing x) y = _
    rw [hstanding]
    rfl

/-- A literal with two raw control bytes, between them one behind a backslash and a quote that does not close
it. The tab behind the literal is a blank, and the literal after it is left open. -/
theorem escapeControls_minimal_behind_backslash :
    let x : List UInt8 := [0x22, 0x01, 0x5C, 0x0A, 0x5C, 0x22, 0x0D, 0x22, 0x09]
    let y : List UInt8 := [0x22, 0x1F]
    (0x1F : UInt8) < 0x20 ∧ escapeOf 0x1F = ['\\', 'u', '0', '0', '1', 'f'].map Json.byte ∧
    (Pass.start.run [] x).inString = false ∧
    escapeControls (x ++ y) = escapeControls x ++ escapeControls y ∧
    (escapeControls (x ++ y)).length = 11 + 5 * 3 ∧ escapeControls (x ++ y) ≠ x ++ y := by
  intro x y
  obtain ⟨-, -, hdiffers, -, hescape, hlength, hsplit⟩ := escapeControls_minimal (x ++ y)
  have hcontrol : (0x1F : UInt8) < 0x20 := by decide
  have houtside : (Pass.start.run [] x).inString = false := by decide
  refine ⟨hcontrol, (hescape 0x1F hcontrol).1, houtside, hsplit x y rfl houtside, ?_, ?_⟩
  · have hcount : (placed (x ++ y)).countP (fun p => Raw p.1 p.2) = 3 := by decide
    rw [hlength, hcount]
    rfl
  · exact hdiffers.mpr ⟨x ++ [0x22], 0x1F, [], rfl, by decide⟩

end MailServer.Jmap
