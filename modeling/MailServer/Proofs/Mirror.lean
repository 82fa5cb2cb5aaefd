import MailServer.Proofs.Spot

/-!
# Reading escaped bytes — strings, words and numbers

A lenient reader on the raw bytes and the strict reader on the bytes with their control characters
escaped are followed side by side. They fail together, or they read the same value and the strict
one is left with the escaped form of what the lenient one is left with.

* `Passes spot s rest` — the machine of `Spot` runs over the bytes of `s` in front of `rest` and
  comes out of every string.
* `Mirrors spot s lenient strict` — the relation of the two answers; `Mirrors.bind` puts readers
  one behind the other.
* `mirrors_contents`, `mirrors_string` — strings, the one place where the two inputs differ.
* `mirrors_number`, `mirrors_word` — numbers and words, in which no string can begin.
-/

namespace MailServer.Json

open Jmap (Quoting escapeFrom escapeControls escapeOf hexByte)

/-! ## The relation -/

/-- The bytes in front of `rest` lead the machine from `spot` to the outside of strings. -/
def Passes (spot : Spot) (s rest : List UInt8) : Prop :=
  ∃ front, s = front ++ rest ∧ scan spot front = some .outside

theorem Passes.refl (s : List UInt8) : Passes .outside s s := ⟨[], rfl, rfl⟩

theorem Passes.trans {spot : Spot} {s t u : List UInt8} (hst : Passes spot s t)
    (htu : Passes .outside t u) : Passes spot s u := by
  obtain ⟨front, rfl, hfront⟩ := hst
  obtain ⟨middle, rfl, hmiddle⟩ := htu
  exact ⟨front ++ middle, (List.append_assoc ..).symm, by rw [scan_append, hfront]; exact hmiddle⟩

theorem Passes.cons {spot after : Spot} {b : UInt8} {s rest : List UInt8}
    (hnext : spot.next b = some after) (h : Passes after s rest) : Passes spot (b :: s) rest := by
  obtain ⟨front, rfl, hfront⟩ := h
  exact ⟨b :: front, rfl, by rw [scan, hnext]; exact hfront⟩

theorem Passes.length_le {spot : Spot} {s rest : List UInt8} (h : Passes spot s rest) :
    rest.length ≤ s.length := by
  obtain ⟨front, rfl, -⟩ := h
  rw [List.length_append]
  omega

/-- The answers of the lenient reader, which began at `spot` in front of `s`, and of the strict
one. -/
inductive Mirrors {α : Type} (spot : Spot) (s : List UInt8) :
    Except Fault (α × List UInt8) → Except Fault (α × List UInt8) → Prop where
  | refused (f g : Fault) : Mirrors spot s (.error f) (.error g)
  | accepted (a : α) (rest : List UInt8) (h : Passes spot s rest) :
      Mirrors spot s (.ok (a, rest)) (.ok (a, escapeControls rest))

namespace Mirrors

variable {α β : Type} {spot : Spot} {s : List UInt8} {x y : Except Fault (α × List UInt8)}

theorem passes (h : Mirrors spot s x y) {a : α} {rest : List UInt8} (hx : x = .ok (a, rest)) :
    Passes spot s rest := by
  cases h with
  | refused => cases hx
  | accepted b t hp =>
    cases hx
    exact hp

/-- A reader that has gone from one spot to the outside of strings goes on there. -/
theorem after {t : List UInt8} (hp : Passes spot s t) (h : Mirrors .outside t x y) :
    Mirrors spot s x y := by
  cases h with
  | refused => exact .refused _ _
  | accepted a rest hp' => exact .accepted _ _ (hp.trans hp')

/-- Readers behind each other: the second one begins outside of strings. -/
theorem bind {f g : α × List UInt8 → Except Fault (β × List UInt8)} (h : Mirrors spot s x y)
    (hfg : ∀ a rest, Passes spot s rest →
      Mirrors .outside rest (f (a, rest)) (g (a, escapeControls rest))) :
    Mirrors spot s (x >>= f) (y >>= g) := by
  cases h with
  | refused => exact .refused _ _
  | accepted a rest hp => exact (hfg a rest hp).after hp

theorem map (h : Mirrors spot s x y) (f : α → β) :
    Mirrors spot s (x.map fun r => (f r.1, r.2)) (y.map fun r => (f r.1, r.2)) := by
  cases h with
  | refused => exact .refused _ _
  | accepted a rest hp => exact .accepted _ _ hp

theorem cons {next : Spot} {b : UInt8} (hnext : spot.next b = some next) (h : Mirrors next s x y) :
    Mirrors spot (b :: s) x y := by
  cases h with
  | refused => exact .refused _ _
  | accepted a rest hp => exact .accepted _ _ (hp.cons hnext)

end Mirrors

/-! ## Strings -/

/-- A failure of a reader, whatever it says. -/
def Fails {α : Type} (x : Except Fault α) : Prop := ∃ f, x = .error f

theorem Mirrors.of_fails {α : Type} {spot : Spot} {s : List UInt8}
    {x y : Except Fault (α × List UInt8)} (hx : Fails x) (hy : Fails y) : Mirrors spot s x y := by
  obtain ⟨f, rfl⟩ := hx
  obtain ⟨g, rfl⟩ := hy
  exact .refused f g

section Contents

variable {raw : RawControl} {state after : StringState} {b : UInt8} {added rest : List UInt8}

theorem fails_contents_of_step {cause : Cause} (hend : ¬ (state = .text ∧ b = 0x22))
    (hstep : stringStep raw state b = .error cause) :
    Fails (readContents raw state (b :: rest)) :=
  ⟨.before cause rest, (if_neg hend).trans (by rw [hstep])⟩

/-- One byte that the reader of a string takes: what it adds goes in front of what comes. -/
theorem contents_of_step (hend : ¬ (state = .text ∧ b = 0x22))
    (hstep : stringStep raw state b = .ok (added, after)) :
    readContents raw state (b :: rest) =
      (readContents raw after rest).map fun r => (added ++ r.1, r.2) := by
  refine (if_neg hend).trans ?_
  rw [hstep]
  dsimp only
  cases readContents raw after rest with
  | error f => rfl
  | ok r => rfl

theorem contents_of_silent_step (hend : ¬ (state = .text ∧ b = 0x22))
    (hstep : stringStep raw state b = .ok ([], after)) :
    readContents raw state (b :: rest) = readContents raw after rest := by
  rw [contents_of_step hend hstep]
  cases readContents raw after rest with
  | error f => rfl
  | ok r => rfl

/-- A string in a hexadecimal escape with a wrong digit never ends. Induction on the bytes. -/
theorem fails_contents_of_dead (hdead : state.alive = false) (s : List UInt8) :
    Fails (readContents raw state s) := by
  induction s generalizing state with
  | nil => exact ⟨_, rfl⟩
  | cons b rest ih =>
    match state, hdead with
    | .hex lead 0 none, _ =>
      exact fails_contents_of_step (by simp) rfl
    | .hex lead (left + 1) none, _ =>
      have hstep : stringStep raw (.hex lead (left + 1) none) b = .ok ([], .hex lead left none) := rfl
      rw [contents_of_silent_step (by simp) hstep]
      exact ih rfl

/-- A reader that comes to such a state fails. -/
theorem fails_contents_of_step_dead (hend : ¬ (state = .text ∧ b = 0x22))
    (hstep : stringStep raw state b = .ok (added, after)) (hdead : after.alive = false) :
    Fails (readContents raw state (b :: rest)) := by
  obtain ⟨f, hf⟩ := fails_contents_of_dead hdead rest
  exact ⟨f, by rw [contents_of_step hend hstep, hf]; rfl⟩

end Contents

/-- The digits of an escape are those of the byte, and it encodes the byte. -/
theorem escape_digits {b : UInt8} (h : b < 0x20) :
    hexDigit? (hexByte (b / 16)) = some (b.toNat / 16) ∧
    hexDigit? (hexByte (b % 16)) = some (b.toNat % 16) ∧
    String.utf8EncodeChar (Char.ofNat b.toNat) = [b] := by
  -- there are thirty-two control bytes to look at
  have hall : ∀ n : Fin 32, hexDigit? (hexByte (UInt8.ofNat n / 16)) = some (n.val / 16) ∧
      hexDigit? (hexByte (UInt8.ofNat n % 16)) = some (n.val % 16) ∧
      String.utf8EncodeChar (Char.ofNat n) = [UInt8.ofNat n] := by decide
  have hb := hall ⟨b.toNat, by simpa [UInt8.lt_iff_toNat_lt] using h⟩
  simpa using hb

section Escape

variable {b : UInt8} (h : b < 0x20) (t : List UInt8)
include h

/-- The digits of the escape of a control byte, up to the last one. -/
theorem contents_escape_digits (lead : Option Nat) :
    readContents .refused (.hex lead 3 (some 0))
        (0x30 :: 0x30 :: hexByte (b / 16) :: hexByte (b % 16) :: t) =
      readContents .refused (.hex lead 0 (some (b.toNat / 16))) (hexByte (b % 16) :: t) := by
  have hzero : hexDigit? 0x30 = some 0 := by decide
  have hthird := stringStep_hex_of_digit .refused lead 1 0 (escape_digits h).1
  rw [Nat.zero_mul, Nat.zero_add] at hthird
  rw [contents_of_silent_step (by simp) (stringStep_hex_of_digit .refused lead 3 0 hzero),
    contents_of_silent_step (by simp) (stringStep_hex_of_digit .refused lead 2 _ hzero),
    contents_of_silent_step (by simp) hthird]

/-- The last digit completes the value of the byte. -/
theorem step_escape_end (lead : Option Nat) :
    stringStep .refused (.hex lead 0 (some (b.toNat / 16))) (hexByte (b % 16)) =
      finishEscape lead b.toNat := by
  have hsum : b.toNat / 16 * 16 + b.toNat % 16 = b.toNat := by omega
  rw [stringStep_hex_of_digit .refused lead 0 _ (escape_digits h).2.1, hsum]

/-- In the text of a string the escape of a control byte is read as the byte. -/
theorem contents_escapeOf :
    readContents .refused .text (escapeOf b ++ t) =
      (readContents .refused .text t).map fun r => ([b] ++ r.1, r.2) := by
  have hsmall : b.toNat < 32 := by simpa [UInt8.lt_iff_toNat_lt] using h
  have hfinish : finishEscape none b.toNat = .ok ([b], .text) := by
    rw [finishEscape, if_neg (by omega), if_neg (by omega), (escape_digits h).2.2]
  have hslash : stringStep .refused .text 0x5C = .ok ([], .escape) := rfl
  have hletter : stringStep .refused .escape 0x75 = .ok ([], .hex none 3 (some 0)) := rfl
  have hend := step_escape_end h none
  rw [hfinish] at hend
  show readContents .refused .text (0x5C :: 0x75 :: 0x30 :: 0x30 :: hexByte (b / 16) ::
    hexByte (b % 16) :: t) = _
  rw [contents_of_silent_step (by simp) hslash, contents_of_silent_step (by simp) hletter,
    contents_escape_digits h, contents_of_step (by simp) hend]

/-- Behind a leading surrogate the escape of a control byte is refused: it is no second one. -/
theorem fails_contents_escapeOf_pair (lead : Nat) :
    Fails (readContents .refused (.pairBackslash lead) (escapeOf b ++ t)) := by
  have hsmall : b.toNat < 32 := by simpa [UInt8.lt_iff_toNat_lt] using h
  have hfinish : finishEscape (some lead) b.toNat = .error .loneSurrogate := by
    rw [finishEscape, if_neg (by omega)]
  have hslash : stringStep .refused (.pairBackslash lead) 0x5C = .ok ([], .pairLetter lead) := rfl
  have hletter : stringStep .refused (.pairLetter lead) 0x75 = .ok ([], .hex (some lead) 3 (some 0)) :=
    rfl
  have hend := step_escape_end h (some lead)
  rw [hfinish] at hend
  show Fails (readContents .refused (.pairBackslash lead) (0x5C :: 0x75 :: 0x30 :: 0x30 ::
    hexByte (b / 16) :: hexByte (b % 16) :: t))
  rw [contents_of_silent_step (by simp) hslash, contents_of_silent_step (by simp) hletter,
    contents_escape_digits h]
  exact fails_contents_of_step (by simp) hend

end Escape

/-- In a hexadecimal escape the backslash of an escape is no digit. -/
theorem fails_contents_escapeOf_hex (lead : Option Nat) (left n : Nat) (b : UInt8)
    (t : List UInt8) :
    Fails (readContents .refused (.hex lead left (some n)) (escapeOf b ++ t)) := by
  have hslash := stringStep_hex_of_no_digit .refused lead left n (show hexDigit? 0x5C = none by decide)
  cases left with
  | zero => exact fails_contents_of_step (by simp) hslash
  | succ left => exact fails_contents_of_step_dead (by simp) hslash rfl

/-- Nor is a control byte one. -/
theorem fails_contents_hex_of_control (lead : Option Nat) (left n : Nat) {b : UInt8} (h : b < 0x20)
    (t : List UInt8) : Fails (readContents .kept (.hex lead left (some n)) (b :: t)) := by
  have hdigit : hexDigit? b = none := by
    cases hd : hexDigit? b with
    | none => rfl
    | some d => exact absurd h (bounds_of_hexDigit? hd).1
  have hstep := stringStep_hex_of_no_digit .kept lead left n hdigit
  cases left with
  | zero => exact fails_contents_of_step (by simp) hstep
  | succ left => exact fails_contents_of_step_dead (by simp) hstep rfl

/-- Raw control bytes make a difference in the text of a string only. -/
theorem step_refused_eq_kept {state : StringState} {b : UInt8} (h : ¬ (state = .text ∧ b < 0x20)) :
    stringStep .refused state b = stringStep .kept state b := by
  cases state with
  | text =>
    have hb : ¬ b < 0x20 := fun hb => h ⟨rfl, hb⟩
    simp only [stringStep, hb, false_and, if_false]
  | escape => rfl
  | hex lead left value => rfl
  | pairBackslash lead => rfl
  | pairLetter lead => rfl

/-- The machine takes the step that the reader of a string takes. -/
theorem Spot.next_of_step {state after : StringState} {b : UInt8} {added : List UInt8}
    (hend : ¬ (state = .text ∧ b = 0x22)) (hstep : stringStep .kept state b = .ok (added, after))
    (halive : after.alive = true) : (Spot.string state).next b = some (.string after) := by
  rw [Spot.next, if_neg hend, hstep]
  exact if_pos halive

/-- **The contents of a string.** From any state in which the string can still end well, reading
the escaped bytes mirrors reading the raw ones. Induction on the raw bytes, along which the spot of
the reader and the state of the pass stay in step: a raw control byte in the text is read back from
its escape, and at any other place in the string it is refused on both sides. -/
theorem mirrors_contents {state : StringState} (halive : state.alive = true) (s : List UInt8) :
    Mirrors (.string state) s (readContents .kept state s)
      (readContents .refused state (escapeFrom (Spot.string state).quoting s)) := by
  induction s generalizing state with
  | nil => exact .refused _ _
  | cons b rest ih =>
    by_cases hend : state = .text ∧ b = 0x22
    · obtain ⟨rfl, rfl⟩ := hend
      exact .accepted [] rest ⟨[0x22], rfl, rfl⟩
    by_cases hraw : (Spot.string state).quoting = .inside ∧ b < 0x20
    · obtain ⟨hinside, hb⟩ := hraw
      rw [escapeFrom, if_pos ⟨hinside, hb⟩, hinside]
      cases state with
      | text =>
        have hslash : b ≠ byte '\\' := ne_of_control hb (by decide)
        have hstep : stringStep .kept .text b = .ok ([b], .text) := by
          rw [stringStep, if_neg hslash, if_neg (by simp)]
        rw [contents_of_step hend hstep, contents_escapeOf hb]
        exact ((ih rfl).map _).cons (Spot.next_of_step hend hstep rfl)
      | escape => cases hinside
      -- raw, the byte is no digit; escaped, its backslash is none
      | hex lead left value =>
        cases value with
        | none => cases halive
        | some n =>
          exact .of_fails (fails_contents_hex_of_control lead left n hb rest)
            (fails_contents_escapeOf_hex lead left n b _)
      -- raw, the byte is no backslash; escaped, it is no second half
      | pairBackslash lead =>
        have hslash : b ≠ byte '\\' := ne_of_control hb (by decide)
        have hstep : stringStep .kept (.pairBackslash lead) b = .error .unfinishedSurrogate :=
          if_neg hslash
        exact .of_fails (fails_contents_of_step hend hstep) (fails_contents_escapeOf_pair hb _ lead)
      | pairLetter lead => cases hinside
    -- any other byte is copied, and both readers take the same step
    · have hcopy : ¬ (state = .text ∧ b < 0x20) := by
        rintro ⟨rfl, hb⟩
        exact hraw ⟨rfl, hb⟩
      rw [escapeFrom, if_neg hraw]
      cases hkept : stringStep .kept state b with
      | error cause =>
        have hrefused := (step_refused_eq_kept hcopy).trans hkept
        exact .of_fails (fails_contents_of_step hend hkept) (fails_contents_of_step hend hrefused)
      | ok step =>
        obtain ⟨added, after⟩ := step
        have hrefused := (step_refused_eq_kept hcopy).trans hkept
        cases hafter : after.alive with
        | false =>
          exact .of_fails (fails_contents_of_step_dead hend hkept hafter)
            (fails_contents_of_step_dead hend hrefused hafter)
        | true =>
          rw [contents_of_step hend hkept, contents_of_step hend hrefused,
            ← Spot.quoting_step hend hkept hafter]
          exact ((ih hafter).map _).cons (Spot.next_of_step hend hkept hafter)

/-- A string behind its opening quote. -/
theorem mirrors_string (s : List UInt8) :
    Mirrors (.string .text) s (readString .kept s) (readString .refused (escapeFrom .inside s)) := by
  have hcontents : Mirrors (.string .text) s (readContents .kept .text s)
      (readContents .refused .text (escapeFrom .inside s)) := mirrors_contents rfl s
  unfold readString
  generalize readContents .kept .text s = x at hcontents ⊢
  generalize readContents .refused .text (escapeFrom .inside s) = y at hcontents ⊢
  cases hcontents with
  | refused => exact .refused _ _
  | accepted contents rest hp =>
    dsimp only
    cases Text.ofUtf8? contents with
    | none => exact .refused _ _
    | some text => exact .accepted _ _ hp

/-! ## Outside of strings

Up to the next quote the escaped bytes are the raw ones. -/

theorem escapeControls_cons {b : UInt8} (h : b ≠ 0x22) (s : List UInt8) :
    escapeControls (b :: s) = b :: escapeControls s := by
  have hcopy : ¬ (Quoting.outside = .inside ∧ b < 0x20) := by simp
  rw [escapeControls, escapeFrom, if_neg hcopy, Quoting.next, if_neg h]
  rfl

theorem escapeControls_quote (s : List UInt8) :
    escapeControls (0x22 :: s) = 0x22 :: escapeFrom .inside s := rfl

/-- Whatever the next byte is, it is copied. -/
theorem escapeControls_head (b : UInt8) (s : List UInt8) :
    ∃ t, escapeControls (b :: s) = b :: t := by
  by_cases h : b = 0x22
  · exact ⟨_, h ▸ escapeControls_quote s⟩
  · exact ⟨_, escapeControls_cons h s⟩

/-- A printable byte other than the quote begins no string. -/
theorem Spot.next_outside {b : UInt8} (h : 0x22 < b) : Spot.outside.next b = some .outside := by
  have hquote : b ≠ 0x22 := fun hb => absurd (hb ▸ h) (by decide)
  have hcontrol : ¬ b < 0x20 := fun hb => absurd (UInt8.lt_trans h hb) (by decide)
  rw [Spot.next, if_neg hquote, if_neg fun hc => hcontrol hc.1]

theorem Mirrors.cons_outside {α : Type} {b : UInt8} {s : List UInt8}
    {x y : Except Fault (α × List UInt8)} (h : 0x22 < b) (hm : Mirrors .outside s x y) :
    Mirrors .outside (b :: s) x y := hm.cons (Spot.next_outside h)

/-- Blanks are passed over on both sides. -/
theorem skipBlank_escapeControls (s : List UInt8) :
    skipBlank (escapeControls s) = escapeControls (skipBlank s) ∧ Passes .outside s (skipBlank s) := by
  induction s with
  | nil => exact ⟨rfl, Passes.refl []⟩
  | cons b s ih =>
    cases hb : isBlankByte b with
    | true =>
      have hquote : b ≠ 0x22 := by
        rintro rfl
        cases hb
      have hnext : Spot.outside.next b = some .outside := by
        rw [Spot.next, if_neg hquote, hb]
        exact if_neg (by simp)
      rw [escapeControls_cons hquote, skipBlank, hb, skipBlank, hb]
      exact ⟨ih.1, ih.2.cons hnext⟩
    | false =>
      obtain ⟨t, ht⟩ := escapeControls_head b s
      have hkeep : ∀ t, skipBlank (b :: t) = b :: t := fun t => by rw [skipBlank, hb]; rfl
      rw [hkeep, ht, hkeep]
      exact ⟨rfl, Passes.refl _⟩

/-- A word without quotes. -/
theorem mirrors_word {ws : List UInt8} (hws : ∀ w ∈ ws, 0x22 < w) (s : List UInt8) :
    Mirrors .outside s (readWord ws s) (readWord ws (escapeControls s)) := by
  induction ws generalizing s with
  | nil => exact .accepted () s (Passes.refl s)
  | cons w ws ih =>
    have hw := hws w List.mem_cons_self
    cases s with
    | nil => exact .refused _ _
    | cons b s =>
      by_cases hb : b = w
      · subst hb
        have hquote : b ≠ 0x22 := fun h => absurd (h ▸ hw) (by decide)
        rw [escapeControls_cons hquote, readWord, if_pos rfl, readWord, if_pos rfl]
        exact (ih (fun w hw => hws w (List.mem_cons_of_mem _ hw)) s).cons_outside hw
      · obtain ⟨t, ht⟩ := escapeControls_head b s
        rw [ht, readWord, if_neg hb, readWord, if_neg hb]
        exact .refused _ _

/-! ## Numbers -/

theorem lt_of_digit? {b : UInt8} {d : Nat} (h : digit? b = some d) : 0x22 < b := by
  unfold digit? at h
  split at h
  · rename_i hb
    simp only [Bool.and_eq_true, decide_eq_true_eq] at hb
    exact UInt8.lt_of_lt_of_le (by decide) hb.1
  · cases h

theorem ne_quote_of_lt {b : UInt8} (h : 0x22 < b) : b ≠ 0x22 := fun hb => absurd (hb ▸ h) (by decide)

theorem startsWithDigit_escapeControls (s : List UInt8) :
    startsWithDigit (escapeControls s) = startsWithDigit s := by
  cases s with
  | nil => rfl
  | cons b s =>
    obtain ⟨t, ht⟩ := escapeControls_head b s
    rw [ht]
    rfl

/-- The same digits are taken on both sides. -/
theorem takeDigits_escapeControls (bound n : Nat) (s : List UInt8) :
    takeDigits bound n (escapeControls s) =
      ((takeDigits bound n s).1, (takeDigits bound n s).2.1,
        escapeControls (takeDigits bound n s).2.2) ∧
    Passes .outside s (takeDigits bound n s).2.2 := by
  induction s generalizing n with
  | nil => exact ⟨rfl, Passes.refl []⟩
  | cons b s ih =>
    cases hd : digit? b with
    | none =>
      obtain ⟨t, ht⟩ := escapeControls_head b s
      have hkeep : ∀ t, takeDigits bound n (b :: t) = (n, 0, b :: t) := fun t => by
        rw [takeDigits, hd]
      rw [hkeep, ht, hkeep]
      exact ⟨rfl, Passes.refl _⟩
    | some d =>
      have hb := lt_of_digit? hd
      rw [escapeControls_cons (ne_quote_of_lt hb), takeDigits, hd, takeDigits, hd]
      dsimp only
      split
      · obtain ⟨heq, hp⟩ := ih (n * 10 + d)
        rw [heq]
        exact ⟨rfl, hp.cons (Spot.next_outside hb)⟩
      · rw [← escapeControls_cons (ne_quote_of_lt hb)]
        exact ⟨rfl, Passes.refl _⟩

theorem dropDigits_escapeControls (s : List UInt8) :
    dropDigits (escapeControls s) = ((dropDigits s).1, escapeControls (dropDigits s).2) ∧
    Passes .outside s (dropDigits s).2 := by
  induction s with
  | nil => exact ⟨rfl, Passes.refl []⟩
  | cons b s ih =>
    cases hd : digit? b with
    | none =>
      obtain ⟨t, ht⟩ := escapeControls_head b s
      have hkeep : ∀ t, dropDigits (b :: t) = (0, b :: t) := fun t => by
        rw [dropDigits, hd]
        rfl
      rw [hkeep, ht, hkeep]
      exact ⟨rfl, Passes.refl _⟩
    | some d =>
      have hb := lt_of_digit? hd
      rw [escapeControls_cons (ne_quote_of_lt hb), dropDigits, hd, dropDigits, hd]
      rw [ih.1]
      exact ⟨rfl, ih.2.cons (Spot.next_outside hb)⟩

section Number

variable (negative : Bool) (n : Nat) (e : Int) (s : List UInt8)

theorem mirrors_finishDouble :
    Mirrors .outside s (finishDouble negative n e s) (finishDouble negative n e (escapeControls s)) := by
  unfold finishDouble
  cases scale? n.toUInt64.toFloat e with
  | none => exact .refused _ _
  | some x => exact .accepted _ _ (Passes.refl s)

theorem mirrors_finishZero :
    Mirrors .outside s (finishZero negative s) (finishZero negative (escapeControls s)) := by
  obtain ⟨heq, hp⟩ := dropDigits_escapeControls s
  rw [finishZero, finishZero, heq]
  exact .accepted _ _ hp

theorem mirrors_exponentDigits (up : Bool) :
    Mirrors .outside s (readExponentDigits negative n e up s)
      (readExponentDigits negative n e up (escapeControls s)) := by
  obtain ⟨heq, hp⟩ := takeDigits_escapeControls (Nat.pow 2 31) 0 s
  rw [readExponentDigits, readExponentDigits, heq]
  generalize takeDigits (Nat.pow 2 31) 0 s = taken at hp ⊢
  obtain ⟨power, count, rest⟩ := taken
  dsimp only at hp ⊢
  rw [startsWithDigit_escapeControls]
  split
  · split
    · exact .refused _ _
    · exact (mirrors_finishZero negative rest).after hp
  · exact (mirrors_finishDouble negative n _ rest).after hp

/-- What follows the sign of an exponent. -/
def exponentBehindSign (up : Bool) : List UInt8 → Except Fault (Number × List UInt8)
  | [] => .error (.before .endInValue [])
  | b :: rest =>
    if (digit? b).isSome then readExponentDigits negative n e up (b :: rest)
    else .error (.before .invalidNumber rest)

theorem readExponent_cons (b : UInt8) :
    readExponent negative n e (b :: s) =
      if b = byte '+' then exponentBehindSign negative n e true s
      else if b = byte '-' then exponentBehindSign negative n e false s
      else exponentBehindSign negative n e true (b :: s) := by
  by_cases hplus : b = byte '+'
  · simp only [readExponent, if_pos hplus]
    cases s <;> rfl
  · by_cases hminus : b = byte '-'
    · simp only [readExponent, if_neg hplus, if_pos hminus]
      cases s <;> rfl
    · simp only [readExponent, if_neg hplus, if_neg hminus]
      rfl

theorem mirrors_exponentBehindSign (up : Bool) :
    Mirrors .outside s (exponentBehindSign negative n e up s)
      (exponentBehindSign negative n e up (escapeControls s)) := by
  cases s with
  | nil => exact .refused _ _
  | cons b s =>
    cases hd : digit? b with
    | none =>
      have hfails : ∀ t, Fails (exponentBehindSign negative n e up (b :: t)) := fun t =>
        ⟨_, by rw [exponentBehindSign, hd]; rfl⟩
      obtain ⟨t, ht⟩ := escapeControls_head b s
      rw [ht]
      exact .of_fails (hfails s) (hfails t)
    | some d =>
      have hkeep : ∀ t, exponentBehindSign negative n e up (b :: t)
          = readExponentDigits negative n e up (b :: t) := fun t => by
        rw [exponentBehindSign, hd]
        rfl
      have hquote := ne_quote_of_lt (lt_of_digit? hd)
      rw [escapeControls_cons hquote, hkeep, hkeep, ← escapeControls_cons hquote]
      exact mirrors_exponentDigits negative n e (b :: s) up

theorem mirrors_exponent :
    Mirrors .outside s (readExponent negative n e s) (readExponent negative n e (escapeControls s)) := by
  cases s with
  | nil => exact .refused _ _
  | cons b s =>
    by_cases hplus : b = byte '+'
    · subst hplus
      rw [escapeControls_cons (by decide), readExponent_cons, if_pos rfl, readExponent_cons, if_pos rfl]
      exact (mirrors_exponentBehindSign negative n e s true).cons_outside (by decide)
    by_cases hminus : b = byte '-'
    · subst hminus
      rw [escapeControls_cons (by decide), readExponent_cons, if_neg hplus, if_pos rfl,
        readExponent_cons, if_neg hplus, if_pos rfl]
      exact (mirrors_exponentBehindSign negative n e s false).cons_outside (by decide)
    · have hsign := mirrors_exponentBehindSign negative n e (b :: s) true
      obtain ⟨t, ht⟩ := escapeControls_head b s
      rw [ht] at hsign ⊢
      rwa [readExponent_cons, if_neg hplus, if_neg hminus, readExponent_cons, if_neg hplus,
        if_neg hminus]

theorem mirrors_finishDigits :
    Mirrors .outside s (finishDigits negative n e s) (finishDigits negative n e (escapeControls s)) := by
  cases s with
  | nil => exact mirrors_finishDouble negative n e []
  | cons b s =>
    by_cases hexp : (b = byte 'e' || b = byte 'E') = true
    · have hb : 0x22 < b := by
        simp only [Bool.or_eq_true, decide_eq_true_eq] at hexp
        rcases hexp with rfl | rfl <;> decide
      rw [escapeControls_cons (ne_quote_of_lt hb), finishDigits, if_pos hexp, finishDigits, if_pos hexp]
      exact (mirrors_exponent negative n e s).cons_outside hb
    · have hdouble := mirrors_finishDouble negative n e (b :: s)
      obtain ⟨t, ht⟩ := escapeControls_head b s
      rw [ht] at hdouble ⊢
      rwa [finishDigits, if_neg hexp, finishDigits, if_neg hexp]

theorem mirrors_fraction :
    Mirrors .outside s (readFraction negative n e s) (readFraction negative n e (escapeControls s)) := by
  obtain ⟨heq, hp⟩ := takeDigits_escapeControls (Nat.pow 2 64) n s
  rw [readFraction, readFraction, heq]
  generalize takeDigits (Nat.pow 2 64) n s = taken at hp ⊢
  obtain ⟨value, count, rest⟩ := taken
  dsimp only at hp ⊢
  rw [startsWithDigit_escapeControls]
  split
  · obtain ⟨hdrop, hp'⟩ := dropDigits_escapeControls rest
    rw [hdrop]
    exact (mirrors_finishDigits negative value _ _).after (hp.trans hp')
  · split
    · cases rest with
      | nil => exact .refused _ _
      | cons b rest =>
        obtain ⟨t, ht⟩ := escapeControls_head b rest
        rw [ht]
        exact .refused _ _
    · exact (mirrors_finishDigits negative value _ rest).after hp

theorem mirrors_finishInteger :
    Mirrors .outside s (finishInteger negative n s) (finishInteger negative n (escapeControls s)) := by
  cases s with
  | nil => exact .accepted _ _ (Passes.refl [])
  | cons b s =>
    by_cases hpoint : b = byte '.'
    · subst hpoint
      rw [escapeControls_cons (by decide), finishInteger, if_pos rfl, finishInteger, if_pos rfl]
      exact (mirrors_fraction negative n 0 s).cons_outside (by decide)
    by_cases hexp : (b = byte 'e' || b = byte 'E') = true
    · have hb : 0x22 < b := by
        simp only [Bool.or_eq_true, decide_eq_true_eq] at hexp
        rcases hexp with rfl | rfl <;> decide
      rw [escapeControls_cons (ne_quote_of_lt hb), finishInteger, if_neg hpoint, if_pos hexp,
        finishInteger, if_neg hpoint, if_pos hexp]
      exact (mirrors_exponent negative n 0 s).cons_outside hb
    · have hwhole : Mirrors .outside (b :: s) (.ok (integerNumber negative n, b :: s))
          (.ok (integerNumber negative n, escapeControls (b :: s))) :=
        .accepted _ _ (Passes.refl _)
      obtain ⟨t, ht⟩ := escapeControls_head b s
      rw [ht] at hwhole ⊢
      rwa [finishInteger, if_neg hpoint, if_neg hexp, finishInteger, if_neg hpoint, if_neg hexp]

theorem mirrors_longInteger :
    Mirrors .outside s (readLongInteger negative n s) (readLongInteger negative n (escapeControls s)) := by
  obtain ⟨heq, hp⟩ := dropDigits_escapeControls s
  rw [readLongInteger, readLongInteger, heq]
  generalize dropDigits s = dropped at hp ⊢
  obtain ⟨count, rest⟩ := dropped
  dsimp only at hp ⊢
  refine Mirrors.after hp ?_
  cases rest with
  | nil => exact mirrors_finishDigits negative n _ []
  | cons b rest =>
    by_cases hpoint : b = byte '.'
    · subst hpoint
      rw [escapeControls_cons (by decide)]
      dsimp only
      rw [if_pos rfl, if_pos rfl]
      exact (mirrors_fraction negative n _ rest).cons_outside (by decide)
    · have hdigits := mirrors_finishDigits negative n count (b :: rest)
      obtain ⟨t, ht⟩ := escapeControls_head b rest
      rw [ht] at hdigits ⊢
      dsimp only
      rwa [if_neg hpoint, if_neg hpoint]

/-- A number whose first digit is `b`: the bytes behind that digit are mirrored. -/
theorem mirrors_number {b : UInt8} (hb : (digit? b).isSome = true) :
    Mirrors .outside s (readNumber negative (b :: s)) (readNumber negative (b :: escapeControls s)) := by
  rw [readNumber, readNumber]
  split
  · rw [startsWithDigit_escapeControls]
    split
    · exact .refused _ _
    · exact mirrors_finishInteger negative 0 s
  · obtain ⟨d, hd⟩ := Option.isSome_iff_exists.mp hb
    have hsmall : 0 * 10 + d < Nat.pow 2 64 := by
      unfold digit? at hd
      split at hd
      · cases hd
        show 0 * 10 + (b.toNat - 48) < 18446744073709551616
        have := b.toNat_lt
        omega
      · cases hd
    -- the first digit is taken alike, so the digits behind it decide
    obtain ⟨heq, hp⟩ := takeDigits_escapeControls (Nat.pow 2 64) (0 * 10 + d) s
    have htake : ∀ t, takeDigits (Nat.pow 2 64) 0 (b :: t) =
        ((takeDigits (Nat.pow 2 64) (0 * 10 + d) t).1, (takeDigits (Nat.pow 2 64) (0 * 10 + d) t).2.1 + 1,
          (takeDigits (Nat.pow 2 64) (0 * 10 + d) t).2.2) := fun t => by
      rw [takeDigits, hd]
      exact if_pos hsmall
    rw [htake, htake, heq]
    generalize takeDigits (Nat.pow 2 64) (0 * 10 + d) s = taken at hp ⊢
    obtain ⟨value, count, rest⟩ := taken
    dsimp only at hp ⊢
    rw [startsWithDigit_escapeControls]
    split
    · exact (mirrors_longInteger negative value rest).after hp
    · exact (mirrors_finishInteger negative value rest).after hp

end Number

end MailServer.Json
