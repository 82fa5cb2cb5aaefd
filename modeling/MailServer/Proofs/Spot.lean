import MailServer.Jmap.Envelope
import MailServer.Json.Scan

/-!
# Where a byte of a text stands

The pass over a body (`Jmap.Quoting`) tells three kinds of places apart: outside of strings, inside
of one, and behind a backslash. A reader knows more: which part of an escape it is in. `Spot` is
what the lenient reader knows, as a machine of its own that runs over bytes without building a
value. It stops at every byte with which no text goes on.

* `Spot.next`, `scan` — the machine.
* `Spot.quoting` — what is left of a spot for the pass; `quoting_next`, `quoting_scan` say that the
  two machines stay in step as long as the reader does not stop.
* `Spot.admits_of_next` — the raw control bytes that a spot lets through.
* `Misplaced` — the places of a text in which a raw control byte is an error, told without the
  machine; `not_misplaced_of_scan` says that the machine does not get past one.
-/

namespace MailServer.Json

open Jmap (Quoting)

/-! ## The machine -/

/-- Where a byte stands: outside of strings, or in a string at a state of its reader. -/
inductive Spot where
  | outside
  | string (state : StringState)
deriving DecidableEq

/-- A state in which a string can still end well. A hexadecimal escape with a wrong digit is lost,
though its reader goes on to the last digit before it says so. -/
def StringState.alive : StringState → Bool
  | .hex _ _ none => false
  | _ => true

namespace Spot

/-- The spot of the byte behind `b`, unless no text goes on with `b`. -/
def next : Spot → UInt8 → Option Spot
  | outside, b =>
    if b = 0x22 then some (string .text)
    else if b < 0x20 ∧ isBlankByte b = false then none
    else some outside
  | string state, b =>
    if state = .text ∧ b = 0x22 then some outside
    else match stringStep .kept state b with
      | .error _ => none
      | .ok (_, after) => if after.alive then some (string after) else none

/-- What the pass over a body knows of a spot. -/
def quoting : Spot → Quoting
  | outside => .outside
  | string .escape => .escaped
  | string (.pairLetter _) => .escaped
  | string _ => .inside

end Spot

/-- Runs the machine over bytes. -/
def scan : Spot → List UInt8 → Option Spot
  | spot, [] => some spot
  | spot, b :: rest => (spot.next b).bind fun after => scan after rest

theorem scan_append (spot : Spot) (s t : List UInt8) :
    scan spot (s ++ t) = (scan spot s).bind fun after => scan after t := by
  induction s generalizing spot with
  | nil => rfl
  | cons b s ih =>
    rw [List.cons_append, scan, scan, Option.bind_assoc]
    exact Option.bind_congr fun after _ => ih after

/-! ## Control bytes -/

/-- A hexadecimal digit is neither a control byte nor a quote nor a backslash. -/
theorem bounds_of_hexDigit? {b : UInt8} {d : Nat} (h : hexDigit? b = some d) :
    ¬ b < 0x20 ∧ b ≠ 0x22 ∧ b ≠ 0x5C := by
  have hb : hexDigit? b ≠ none := by simp [h]
  refine ⟨?_, ?_, ?_⟩
  · intro hlt
    refine hb ?_
    have h1 : ¬ 0x30 ≤ b := UInt8.not_le.mpr (UInt8.lt_of_lt_of_le hlt (by decide))
    have h2 : ¬ 0x61 ≤ b := UInt8.not_le.mpr (UInt8.lt_of_lt_of_le hlt (by decide))
    have h3 : ¬ 0x41 ≤ b := UInt8.not_le.mpr (UInt8.lt_of_lt_of_le hlt (by decide))
    simp [hexDigit?, h1, h2, h3]
  · rintro rfl
    exact hb rfl
  · rintro rfl
    exact hb rfl

/-- A control byte is not among the few bytes that a reader looks for. -/
theorem ne_of_control {b c : UInt8} (h : b < 0x20) (hc : 0x20 ≤ c) : b ≠ c := by
  rintro rfl
  exact UInt8.not_le.mpr h hc

theorem letterEscape?_of_control {b : UInt8} (h : b < 0x20) : letterEscape? b = none := by
  have hne : ∀ c : UInt8, 0x20 ≤ c → b ≠ c := fun c hc => ne_of_control h hc
  simp [letterEscape?, hne]

namespace Spot

/-- A raw control byte is let through between tokens, where it is a blank, and where an ordinary
character of a string may stand; nowhere else. -/
theorem admits_of_next {spot after : Spot} {b : UInt8} (hb : b < 0x20)
    (h : spot.next b = some after) :
    (spot = outside ∧ isBlankByte b = true) ∨ spot = string .text := by
  cases spot with
  | outside =>
    left
    rw [next, if_neg (ne_of_control hb (by decide))] at h
    split at h
    · cases h
    · rename_i hblank
      exact ⟨rfl, by simpa [hb] using hblank⟩
  | string state =>
    have hquote : ¬ (state = .text ∧ b = 0x22) := fun hq => ne_of_control hb (by decide) hq.2
    rw [next, if_neg hquote] at h
    cases state with
    | text => exact Or.inr rfl
    | escape =>
      have hu : b ≠ byte 'u' := ne_of_control hb (by decide)
      rw [stringStep, if_neg hu, letterEscape?_of_control hb] at h
      cases h
    -- a hexadecimal escape is lost with the first byte that is no digit
    | hex lead left value =>
      have hdigit : hexDigit? b = none := by
        cases hd : hexDigit? b with
        | none => rfl
        | some d => exact absurd hb (bounds_of_hexDigit? hd).1
      cases left <;> cases value <;> simp [stringStep, hdigit, StringState.alive] at h
    | pairBackslash lead =>
      have hne : b ≠ byte '\\' := ne_of_control hb (by decide)
      rw [stringStep, if_neg hne] at h
      cases h
    | pairLetter lead =>
      have hne : b ≠ byte 'u' := ne_of_control hb (by decide)
      rw [stringStep, if_neg hne] at h
      cases h

end Spot

/-! ## The pass in step with the machine -/

/-- The last digit of an escape leads back to the text, or on to a second surrogate. -/
theorem finishEscape_state {lead : Option Nat} {value : Nat} {added : List UInt8}
    {after : StringState} (h : finishEscape lead value = .ok (added, after)) :
    after = .text ∨ ∃ high, after = .pairBackslash high := by
  cases lead with
  | none =>
    rw [finishEscape] at h
    split at h
    · simp only [reduceCtorEq] at h
    · split at h
      · simp only [Except.ok.injEq, Prod.mk.injEq] at h
        exact Or.inr ⟨_, h.2.symm⟩
      · simp only [Except.ok.injEq, Prod.mk.injEq] at h
        exact Or.inl h.2.symm
  | some high =>
    rw [finishEscape] at h
    split at h
    · simp only [Except.ok.injEq, Prod.mk.injEq] at h
      exact Or.inl h.2.symm
    · simp only [reduceCtorEq] at h

/-- A digit inside a hexadecimal escape counts towards its value. -/
theorem stringStep_hex_of_digit (raw : RawControl) (lead : Option Nat) (left n : Nat) {b : UInt8}
    {d : Nat} (h : hexDigit? b = some d) :
    stringStep raw (.hex lead left (some n)) b =
      match left with
      | left + 1 => .ok ([], .hex lead left (some (n * 16 + d)))
      | 0 => finishEscape lead (n * 16 + d) := by
  cases left <;> simp [stringStep, h]

/-- Any other byte there is the end of the escape, at once or at its last digit. -/
theorem stringStep_hex_of_no_digit (raw : RawControl) (lead : Option Nat) (left n : Nat) {b : UInt8}
    (h : hexDigit? b = none) :
    stringStep raw (.hex lead left (some n)) b =
      match left with
      | left + 1 => .ok ([], .hex lead left none)
      | 0 => .error .invalidEscape := by
  cases left <;> simp [stringStep, h]

namespace Spot

/-- Inside a string the machine goes to the end of it or takes a step of its reader. -/
theorem next_string_cases {state : StringState} {b : UInt8} {after : Spot}
    (h : (string state).next b = some after) :
    (state = .text ∧ b = 0x22 ∧ after = outside) ∨
    (¬ (state = .text ∧ b = 0x22) ∧ ∃ added final,
      stringStep .kept state b = .ok (added, final) ∧ final.alive = true ∧ after = string final) := by
  rw [next] at h
  split at h
  · rename_i hend
    cases h
    exact Or.inl ⟨hend.1, hend.2, rfl⟩
  · rename_i hend
    refine Or.inr ⟨hend, ?_⟩
    split at h
    · cases h
    · rename_i added final hstep
      split at h
      · rename_i halive
        cases h
        exact ⟨added, final, hstep, halive, rfl⟩
      · cases h

/-- A step of the reader of a string, as the pass sees it. -/
theorem quoting_step {state final : StringState} {b : UInt8} {added : List UInt8}
    (hend : ¬ (state = .text ∧ b = 0x22)) (hstep : stringStep .kept state b = .ok (added, final))
    (halive : final.alive = true) : (string final).quoting = (string state).quoting.next b := by
  cases state with
  | text =>
    have hquote : b ≠ 0x22 := fun hb => hend ⟨rfl, hb⟩
    rw [stringStep] at hstep
    split at hstep
    · rename_i hb
      cases hstep
      exact (if_pos hb).symm
    · rename_i hb
      simp only [reduceCtorEq, and_false, if_false] at hstep
      cases hstep
      exact ((if_neg hb).trans (if_neg hquote)).symm
  | escape =>
    rw [stringStep] at hstep
    split at hstep
    · cases hstep
      rfl
    · split at hstep
      · cases hstep
        rfl
      · cases hstep
  | hex lead left value =>
    cases value with
    | none =>
      cases left with
      | zero => cases hstep
      | succ left =>
        cases hstep
        cases halive
    -- only a digit leaves the escape alive, and the pass sees nothing special in one
    | some n =>
      cases hd : hexDigit? b with
      | none =>
        rw [stringStep_hex_of_no_digit _ _ _ _ hd] at hstep
        cases left with
        | zero => cases hstep
        | succ left =>
          cases hstep
          cases halive
      | some d =>
        obtain ⟨-, hquote, hslash⟩ := bounds_of_hexDigit? hd
        have hinside : Quoting.inside = Quoting.inside.next b :=
          ((if_neg hslash).trans (if_neg hquote)).symm
        rw [stringStep_hex_of_digit _ _ _ _ hd] at hstep
        cases left with
        | zero =>
          rcases finishEscape_state hstep with rfl | ⟨high, rfl⟩
          · exact hinside
          · exact hinside
        | succ left =>
          cases hstep
          exact hinside
  | pairBackslash lead =>
    rw [stringStep] at hstep
    split at hstep
    · rename_i hb
      cases hstep
      exact (if_pos hb).symm
    · cases hstep
  | pairLetter lead =>
    rw [stringStep] at hstep
    split at hstep
    · cases hstep
      rfl
    · cases hstep

/-- The pass sees the byte behind `b` where the reader sees it. -/
theorem quoting_next {spot after : Spot} {b : UInt8} (h : spot.next b = some after) :
    after.quoting = spot.quoting.next b := by
  cases spot with
  | outside =>
    rw [next] at h
    split at h
    · rename_i hb
      cases h
      exact (if_pos hb).symm
    · rename_i hb
      split at h
      · cases h
      · cases h
        exact (if_neg hb).symm
  | string state =>
    rcases next_string_cases h with ⟨rfl, rfl, rfl⟩ | ⟨hend, added, final, hstep, halive, rfl⟩
    · rfl
    · exact quoting_step hend hstep halive

end Spot

/-- Where the machine gets to, the pass sees the next byte where the machine does. -/
theorem quoting_scan {spot after : Spot} {s : List UInt8} (h : scan spot s = some after) :
    s.foldl Quoting.next spot.quoting = after.quoting := by
  induction s generalizing spot with
  | nil =>
    cases h
    rfl
  | cons b s ih =>
    obtain ⟨between, hnext, hscan⟩ := Option.bind_eq_some_iff.mp h
    rw [List.foldl_cons, ← Spot.quoting_next hnext]
    exact ih hscan

/-! ## Misplaced control bytes -/

/-- The value of hexadecimal digits behind digits of value `n`. -/
def hexValue? (n : Nat) : List UInt8 → Option Nat
  | [] => some n
  | b :: rest => (hexDigit? b).bind fun d => hexValue? (n * 16 + d) rest

theorem hexValue?_append (n : Nat) (s t : List UInt8) :
    hexValue? n (s ++ t) = (hexValue? n s).bind fun m => hexValue? m t := by
  induction s generalizing n with
  | nil => rfl
  | cons b s ih =>
    rw [List.cons_append, hexValue?, hexValue?, Option.bind_assoc]
    exact Option.bind_congr fun d _ => ih (n * 16 + d)

/-- Where the byte behind `x` stands in a text that begins with `x`. -/
def standing (x : List UInt8) : Quoting := x.foldl Quoting.next .outside

/-- The byte `b` behind `x`, if it is a control byte, is neither a blank between tokens nor a
character of a string. -/
inductive Misplaced : List UInt8 → UInt8 → Prop where
  /-- Outside of strings, and no blank. -/
  | outside {x : List UInt8} {b : UInt8} (h : standing x = .outside) (hb : isBlankByte b = false) :
      Misplaced x b
  /-- Directly behind a backslash. -/
  | escaped {x : List UInt8} {b : UInt8} (h : standing x = .escaped) : Misplaced x b
  /-- Behind the `u` of an escape and fewer than four digits. -/
  | amongDigits {x digits : List UInt8} {b : UInt8} (h : standing x = .inside)
      (hlen : digits.length < 4) : Misplaced (x ++ [0x5C, 0x75] ++ digits) b
  /-- Behind the escape of a leading surrogate. -/
  | betweenHalves {x : List UInt8} {b h i j k : UInt8} {value : Nat} (hx : standing x = .inside)
      (hvalue : hexValue? 0 [h, i, j, k] = some value) (hlead : 0xD800 ≤ value ∧ value ≤ 0xDBFF) :
      Misplaced (x ++ [0x5C, 0x75] ++ [h, i, j, k]) b

/-- Where the machine gets to behind a backslash and a `u` that stand inside a string. -/
theorem scan_escape {spot after : Spot} (h : spot.quoting = .inside)
    (hscan : scan spot [0x5C, 0x75] = some after) :
    ∃ lead, after = .string (.hex lead 3 (some 0)) := by
  obtain ⟨between, hslash, hscan⟩ := Option.bind_eq_some_iff.mp hscan
  obtain ⟨behind, hletter, hscan⟩ := Option.bind_eq_some_iff.mp hscan
  cases hscan
  cases spot with
  | outside => cases h
  | string state =>
    cases state with
    | text =>
      cases hslash
      cases hletter
      exact ⟨none, rfl⟩
    | escape => cases h
    | hex lead left value =>
      obtain ⟨hstate, -⟩ | ⟨-, added, final, hstep, halive, -⟩ := Spot.next_string_cases hslash
      · cases hstate
      · cases left <;> cases value <;> cases hstep <;> cases halive
    | pairBackslash lead =>
      cases hslash
      cases hletter
      exact ⟨some lead, rfl⟩
    | pairLetter lead => cases h

section Digits

variable {lead : Option Nat} {left n : Nat} {b : UInt8} {after : Spot}

/-- In a hexadecimal escape the machine goes on with a digit only. -/
theorem next_hex_cases (h : (Spot.string (.hex lead left (some n))).next b = some after) :
    ∃ d added final, hexDigit? b = some d ∧ after = .string final ∧
      (match left with
        | left + 1 => .ok ([], .hex lead left (some (n * 16 + d)))
        | 0 => finishEscape lead (n * 16 + d)) = Except.ok (added, final) := by
  obtain ⟨hstate, -⟩ | ⟨-, added, final, hstep, halive, rfl⟩ := Spot.next_string_cases h
  · cases hstate
  cases hd : hexDigit? b with
  | none =>
    rw [stringStep_hex_of_no_digit _ _ _ _ hd] at hstep
    cases left with
    | zero => cases hstep
    | succ left =>
      cases hstep
      cases halive
  | some d =>
    rw [stringStep_hex_of_digit _ _ _ _ hd] at hstep
    exact ⟨d, added, final, rfl, rfl, hstep⟩

/-- Where the machine gets to behind digits, before the last one. Induction on the digits. -/
theorem scan_digits {digits : List UInt8} (hlen : digits.length ≤ left)
    (hscan : scan (.string (.hex lead left (some n))) digits = some after) :
    ∃ value, hexValue? n digits = some value ∧
      after = .string (.hex lead (left - digits.length) (some value)) := by
  induction digits generalizing left n with
  | nil =>
    cases hscan
    exact ⟨n, rfl, rfl⟩
  | cons b digits ih =>
    obtain ⟨between, hnext, hscan⟩ := Option.bind_eq_some_iff.mp hscan
    obtain ⟨d, added, final, hd, rfl, hstep⟩ := next_hex_cases hnext
    cases left with
    | zero => simp at hlen
    | succ left =>
      cases hstep
      obtain ⟨value, hvalue, rfl⟩ := ih (Nat.le_of_succ_le_succ hlen) hscan
      refine ⟨value, ?_, ?_⟩
      · rw [hexValue?, hd]
        exact hvalue
      · rw [List.length_cons, Nat.succ_sub_succ]

/-- Behind the last digit of a leading surrogate the machine waits for the second half. -/
theorem next_last_digit (h : (Spot.string (.hex lead 0 (some n))).next b = some after)
    (hlead : ∀ d, hexDigit? b = some d → 0xD800 ≤ n * 16 + d ∧ n * 16 + d ≤ 0xDBFF) :
    ∃ high, after = .string (.pairBackslash high) := by
  obtain ⟨d, added, final, hd, rfl, hstep⟩ := next_hex_cases h
  have hrange := hlead d hd
  dsimp only at hstep
  cases lead with
  | none =>
    rw [finishEscape, if_neg (by omega), if_pos hrange] at hstep
    cases hstep
    exact ⟨_, rfl⟩
  | some high =>
    rw [finishEscape, if_neg (by omega)] at hstep
    cases hstep

end Digits

/-- **Misplaced control bytes.** The machine does not get past one. -/
theorem not_misplaced_of_scan {x y : List UInt8} {b : UInt8} {after : Spot} (hb : b < 0x20)
    (hscan : scan .outside (x ++ b :: y) = some after) : ¬ Misplaced x b := by
  rw [scan_append] at hscan
  obtain ⟨spot, hx, hscan⟩ := Option.bind_eq_some_iff.mp hscan
  obtain ⟨behind, hnext, -⟩ := Option.bind_eq_some_iff.mp hscan
  -- the spot behind `x` admits a raw control byte, and the pass stands where the machine does
  have hstanding : standing x = spot.quoting := quoting_scan hx
  have hadmits := Spot.admits_of_next hb hnext
  intro hplace
  cases hplace with
  | outside h hblank =>
    rw [hstanding] at h
    rcases hadmits with ⟨-, hb'⟩ | rfl
    · exact absurd (hb'.symm.trans hblank) (by decide)
    · cases h
  | escaped h =>
    rw [hstanding] at h
    rcases hadmits with ⟨rfl, -⟩ | rfl <;> cases h
  | @amongDigits x digits _ h hlen =>
    rw [scan_append, scan_append] at hx
    obtain ⟨opened, hx, hdigits⟩ := Option.bind_eq_some_iff.mp hx
    obtain ⟨start, hx, hopen⟩ := Option.bind_eq_some_iff.mp hx
    obtain ⟨lead, rfl⟩ := scan_escape ((quoting_scan hx).symm.trans h) hopen
    obtain ⟨value, -, rfl⟩ := scan_digits (Nat.le_of_lt_succ hlen) hdigits
    rcases hadmits with ⟨hspot, -⟩ | hspot <;> cases hspot
  | @betweenHalves x _ c i j k value h hvalue hlead =>
    rw [scan_append, scan_append] at hx
    obtain ⟨opened, hx, hdigits⟩ := Option.bind_eq_some_iff.mp hx
    obtain ⟨start, hx, hopen⟩ := Option.bind_eq_some_iff.mp hx
    obtain ⟨lead, rfl⟩ := scan_escape ((quoting_scan hx).symm.trans h) hopen
    -- three digits lead up to the last one, which decides whether a second half has to follow
    rw [show [c, i, j, k] = [c, i, j] ++ [k] from rfl, scan_append] at hdigits
    rw [show [c, i, j, k] = [c, i, j] ++ [k] from rfl, hexValue?_append] at hvalue
    obtain ⟨third, hdigits, hlast⟩ := Option.bind_eq_some_iff.mp hdigits
    obtain ⟨n, hn, rfl⟩ := scan_digits (by simp) hdigits
    obtain ⟨last, hlast, hend⟩ := Option.bind_eq_some_iff.mp hlast
    cases hend
    have hsurrogate : ∀ d, hexDigit? k = some d → 0xD800 ≤ n * 16 + d ∧ n * 16 + d ≤ 0xDBFF := by
      intro d hd
      rw [hn, Option.bind_some, hexValue?, hd] at hvalue
      cases hvalue
      exact hlead
    obtain ⟨high, rfl⟩ := next_last_digit hlast hsurrogate
    rcases hadmits with ⟨hspot, -⟩ | hspot <;> cases hspot

end MailServer.Json
