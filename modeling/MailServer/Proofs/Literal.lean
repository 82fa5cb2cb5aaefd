import MailServer.Json.Printer
import MailServer.Proofs.Mirror
import MailServer.Proofs.Utf8

/-!
# Strings and numbers that were written

The text of a string or an integer is read back as what it is the text of. What stands behind a number has
to end it. A character that JSON escapes by a letter is read back from the letter, a control character from
the escape that a raw control byte gets, and every other one from its bytes.

* `contents_escapedChar` — one character of a string; `readString_written` — a string.
* `takeDigits_written` — digits; `readNumber_written` — an integer that fits 64 bits.
* `Stops` — no number goes on here.
-/

namespace MailServer.Json

open Text (utf8Chars utf8EncodeChar_cases ofUtf8?_utf8 utf8Chars_append utf8Chars_cons utf8Chars_nil)

/-! ## Bytes of a text -/

theorem utf8Chars_cons_ascii {c : Char} (h : c.toNat < 0x80) (cs : List Char) :
    utf8Chars (c :: cs) = byte c :: utf8Chars cs := by
  obtain ⟨-, hbytes⟩ | ⟨hlarge, -⟩ := utf8EncodeChar_cases c
  · rw [utf8Chars_cons, hbytes]
    rfl
  · omega

theorem toNat_byte {c : Char} (h : c.toNat < 0x80) : (byte c).toNat = c.toNat :=
  UInt8.toNat_ofNat_of_lt' (show _ < 256 by omega)

/-- The byte tells the character. -/
theorem eq_of_byte_eq {c d : Char} (hc : c.toNat < 0x80) (hd : d.toNat < 0x80) (h : byte c = byte d) :
    c = d := by
  have hnat : c.toNat = d.toNat := by rw [← toNat_byte hc, ← toNat_byte hd, h]
  exact Char.toNat_inj.mp hnat

/-! ## Strings -/

section Strings

variable {raw : RawControl}

/-- Bytes that need no escape are the contents of a string as they are. Induction on the bytes. -/
theorem contents_of_printable {bs : List UInt8} (h : ∀ b ∈ bs, 0x20 ≤ b ∧ b ≠ 0x22 ∧ b ≠ 0x5C)
    (t : List UInt8) :
    readContents raw .text (bs ++ t) = (readContents raw .text t).map fun r => (bs ++ r.1, r.2) := by
  induction bs with
  | nil =>
    rw [List.nil_append]
    cases readContents raw .text t <;> rfl
  | cons b bs ih =>
    obtain ⟨hprintable, hquote, hslash⟩ := h b List.mem_cons_self
    have hcontrol : ¬ b < 0x20 := UInt8.not_lt.mpr hprintable
    have hbackslash : b ≠ byte '\\' := hslash
    have hstep : stringStep raw .text b = .ok ([b], .text) := by
      rw [stringStep, if_neg hbackslash, if_neg fun hc => hcontrol hc.1]
    rw [List.cons_append, contents_of_step (fun hend => hquote hend.2) hstep,
      ih fun b hb => h b (List.mem_cons_of_mem _ hb)]
    cases readContents raw .text t <;> rfl

/-- An escape of one letter is read as its character. -/
theorem contents_letter {letter c : UInt8} (hu : letter ≠ byte 'u') (h : letterEscape? letter = some c)
    (t : List UInt8) :
    readContents raw .text (0x5C :: letter :: t) =
      (readContents raw .text t).map fun r => ([c] ++ r.1, r.2) := by
  have hslash : stringStep raw .text 0x5C = .ok ([], .escape) := rfl
  have hletter : stringStep raw .escape letter = .ok ([c], .text) := by
    rw [stringStep, if_neg hu, h]
  rw [contents_of_silent_step (by simp) hslash, contents_of_step (by simp) hletter]

/-- The escape of a control character is the one that a raw control byte gets. -/
theorem utf8Chars_escape {c : Char} (h : c.toNat < 0x20) :
    utf8Chars ['\\', 'u', '0', '0', hexDigit (c.toNat / 16), hexDigit (c.toNat % 16)] =
        Jmap.escapeOf (UInt8.ofNat c.toNat) ∧
      UInt8.ofNat c.toNat < 0x20 ∧ String.utf8EncodeChar c = [UInt8.ofNat c.toNat] := by
  have hall : ∀ n : Fin 32,
      utf8Chars ['\\', 'u', '0', '0', hexDigit (n.val / 16), hexDigit (n.val % 16)] =
        Jmap.escapeOf (UInt8.ofNat n.val) ∧ UInt8.ofNat n.val < 0x20 := by decide
  obtain ⟨hescape, hsmall⟩ := hall ⟨c.toNat, h⟩
  obtain ⟨-, hbytes⟩ | ⟨hlarge, -⟩ := utf8EncodeChar_cases c
  · exact ⟨hescape, hsmall, hbytes⟩
  · omega

/-- **One character of a string** is read back from the form in which it is written. -/
theorem contents_escapedChar (c : Char) (t : List UInt8) :
    readContents .refused .text (utf8Chars (escapedChar c) ++ t) =
      (readContents .refused .text t).map fun r => (String.utf8EncodeChar c ++ r.1, r.2) := by
  unfold escapedChar
  -- first the characters that have an escape of one letter
  split_ifs with hquote hslash hb ht hn hf hr hcontrol
  · subst hquote
    exact contents_letter (by decide) rfl t
  · subst hslash
    exact contents_letter (by decide) rfl t
  · subst hb
    exact contents_letter (by decide) rfl t
  · subst ht
    exact contents_letter (by decide) rfl t
  · subst hn
    exact contents_letter (by decide) rfl t
  · subst hf
    exact contents_letter (by decide) rfl t
  · subst hr
    exact contents_letter (by decide) rfl t
  · obtain ⟨hescape, hsmall, hbytes⟩ := utf8Chars_escape hcontrol
    rw [hescape, contents_escapeOf hsmall, hbytes]
  · have hwritten : utf8Chars [c] = String.utf8EncodeChar c := by
      rw [utf8Chars_cons, utf8Chars_nil, List.append_nil]
    rw [hwritten]
    refine contents_of_printable ?_ t
    obtain ⟨hsmall, hbytes⟩ | ⟨-, hbytes⟩ := utf8EncodeChar_cases c
    · rw [hbytes, List.forall_mem_singleton]
      refine ⟨?_, fun h => hquote (eq_of_byte_eq hsmall (by decide) h),
        fun h => hslash (eq_of_byte_eq hsmall (by decide) h)⟩
      have hbyte : (UInt8.ofNat c.toNat).toNat = c.toNat := toNat_byte hsmall
      rw [UInt8.le_iff_toNat_le, hbyte]
      exact not_lt.mp hcontrol
    · intro b hb
      have hlarge := hbytes b hb
      refine ⟨UInt8.le_trans (by decide) hlarge, ?_, ?_⟩
      · rintro rfl
        exact absurd hlarge (by decide)
      · rintro rfl
        exact absurd hlarge (by decide)

/-- The contents of a string are read back up to the closing quote. Induction on the characters. -/
theorem contents_written (cs : List Char) (t : List UInt8) :
    readContents .refused .text (utf8Chars (cs.flatMap escapedChar) ++ byte '"' :: t) =
      .ok (utf8Chars cs, t) := by
  induction cs with
  | nil => rfl
  | cons c cs ih =>
    rw [List.flatMap_cons, utf8Chars_append, List.append_assoc, contents_escapedChar, ih, utf8Chars_cons]
    rfl

theorem utf8Chars_stringChars (s : String) (t : List UInt8) :
    utf8Chars (stringChars s) ++ t =
      byte '"' :: (utf8Chars (s.toList.flatMap escapedChar) ++ byte '"' :: t) := by
  unfold stringChars
  rw [List.cons_append, utf8Chars_cons_ascii (by decide), utf8Chars_append,
    utf8Chars_cons_ascii (by decide), List.cons_append, List.append_assoc]
  rfl

/-- A string is read back behind its opening quote. -/
theorem readString_written (s : String) (t : List UInt8) :
    readString .refused (utf8Chars (s.toList.flatMap escapedChar) ++ byte '"' :: t) = .ok (s, t) := by
  have htext : Text.ofUtf8? (utf8Chars s.toList) = some s := ofUtf8?_utf8 s
  unfold readString
  rw [contents_written]
  dsimp only
  rw [htext]

end Strings

/-! ## Numbers -/

/-- No number goes on here. -/
def Stops : List UInt8 → Prop
  | [] => True
  | b :: _ => digit? b = none ∧ b ≠ byte '.' ∧ b ≠ byte 'e' ∧ b ≠ byte 'E'

theorem Stops.startsWithDigit {t : List UInt8} (h : Stops t) : startsWithDigit t = false := by
  cases t with
  | nil => rfl
  | cons b t =>
    show (digit? b).isSome = false
    rw [h.1]
    rfl

/-- An integer ends where no number goes on. -/
theorem finishInteger_of_stops {t : List UInt8} (h : Stops t) (negative : Bool) (n : Nat) :
    finishInteger negative n t = .ok (integerNumber negative n, t) := by
  cases t with
  | nil => rfl
  | cons b t =>
    obtain ⟨-, hpoint, he, hE⟩ := h
    have hexponent : ¬ (b = byte 'e' || b = byte 'E') = true := by
      rw [Bool.or_eq_true, decide_eq_true_eq, decide_eq_true_eq]
      exact not_or.mpr ⟨he, hE⟩
    unfold finishInteger
    dsimp only
    rw [if_neg hpoint, if_neg hexponent]

theorem bounds_of_isDigit {c : Char} (h : c.isDigit = true) : 48 ≤ c.toNat ∧ c.toNat ≤ 57 := by
  simpa [Char.isDigit, UInt32.le_iff_toNat_le] using h

theorem toNat_lt_of_isDigit {c : Char} (h : c.isDigit = true) : c.toNat < 0x80 := by
  have := bounds_of_isDigit h
  omega

theorem digit?_byte {c : Char} (h : c.isDigit = true) : digit? (byte c) = some (c.toNat - '0'.toNat) := by
  obtain ⟨hlow, hhigh⟩ := bounds_of_isDigit h
  have hbyte := toNat_byte (toNat_lt_of_isDigit h)
  have hdigit : (0x30 ≤ byte c && byte c ≤ 0x39) = true := by
    simp only [Bool.and_eq_true, decide_eq_true_eq, UInt8.le_iff_toNat_le, hbyte]
    exact ⟨hlow, hhigh⟩
  unfold digit?
  rw [if_pos hdigit, hbyte]
  rfl

/-- Further digits make a number no smaller. -/
theorem le_ofDigitChars (cs : List Char) (n : Nat) : n ≤ Nat.ofDigitChars 10 cs n := by
  induction cs generalizing n with
  | nil => exact Nat.le_refl n
  | cons c cs ih =>
    rw [Nat.ofDigitChars_cons]
    exact Nat.le_trans (by omega) (ih _)

/-- Digits are taken one by one up to their end. Induction on the digits. -/
theorem takeDigits_written {bound n : Nat} {cs : List Char} (hdigits : ∀ c ∈ cs, c.isDigit = true)
    (hbound : Nat.ofDigitChars 10 cs n < bound) {t : List UInt8} (ht : startsWithDigit t = false) :
    takeDigits bound n (utf8Chars cs ++ t) = (Nat.ofDigitChars 10 cs n, cs.length, t) := by
  induction cs generalizing n with
  | nil =>
    cases t with
    | nil => rfl
    | cons b t =>
      have hb : digit? b = none := by simpa [startsWithDigit] using ht
      show takeDigits bound n (b :: t) = _
      rw [takeDigits, hb]
      rfl
  | cons c cs ih =>
    have hc := hdigits c List.mem_cons_self
    rw [Nat.ofDigitChars_cons] at hbound ⊢
    have hcomm : 10 * n + (c.toNat - '0'.toNat) = n * 10 + (c.toNat - '0'.toNat) := by omega
    rw [hcomm] at hbound ⊢
    have hsmall : n * 10 + (c.toNat - '0'.toNat) < bound :=
      Nat.lt_of_le_of_lt (le_ofDigitChars cs _) hbound
    rw [utf8Chars_cons_ascii (toNat_lt_of_isDigit hc), List.cons_append, takeDigits, digit?_byte hc]
    dsimp only
    rw [if_pos hsmall, ih (fun c hc => hdigits c (List.mem_cons_of_mem _ hc)) hbound]
    rfl

/-- A positive number is not written with a zero in front. Induction on the number. -/
theorem head?_toDigits_ne_zero {n : Nat} (h : 0 < n) : (Nat.toDigits 10 n).head? ≠ some '0' := by
  induction n using Nat.strongRecOn with
  | ind n ih =>
    by_cases hsmall : n < 10
    · have hall : ∀ k : Fin 10, 0 < k.val → Nat.digitChar k.val ≠ '0' := by decide
      rw [Nat.toDigits_of_lt_base hsmall]
      simpa using hall ⟨n, hsmall⟩ h
    · rw [Nat.toDigits_of_base_le (by decide) (by omega)]
      have hfront := ih (n / 10) (by omega) (by omega)
      cases hdigits : Nat.toDigits 10 (n / 10) with
      | nil => exact absurd hdigits Nat.toDigits_ne_nil
      | cons c cs =>
        rw [hdigits] at hfront
        exact hfront

/-- **An integer** that fits 64 bits is read back from its digits. -/
theorem readNumber_written {n : Nat} (hn : n < Nat.pow 2 64) (negative : Bool) {t : List UInt8}
    (ht : Stops t) :
    readNumber negative (utf8Chars (Nat.toDigits 10 n) ++ t) = .ok (integerNumber negative n, t) := by
  rcases Nat.eq_zero_or_pos n with rfl | hpos
  · rw [Nat.toDigits_zero, utf8Chars_cons_ascii (by decide), utf8Chars_nil, List.cons_append,
      List.nil_append, readNumber, if_pos rfl, ht.startsWithDigit]
    exact finishInteger_of_stops ht negative 0
  -- the first digit is no zero, so all of them are taken
  have hall : ∀ c ∈ Nat.toDigits 10 n, c.isDigit = true := fun c hc =>
    Nat.isDigit_of_mem_toDigits (by decide) (by decide) hc
  have hvalue : Nat.ofDigitChars 10 (Nat.toDigits 10 n) 0 = n := Nat.ofDigitChars_ten_toDigits
  have hfits : Nat.ofDigitChars 10 (Nat.toDigits 10 n) 0 < Nat.pow 2 64 := by
    rw [hvalue]
    exact hn
  have htake := takeDigits_written hall hfits ht.startsWithDigit
  rw [hvalue] at htake
  have hhead := head?_toDigits_ne_zero hpos
  cases hdigits : Nat.toDigits 10 n with
  | nil => exact absurd hdigits Nat.toDigits_ne_nil
  | cons c cs =>
    rw [hdigits] at hall htake hhead
    have hc := hall c List.mem_cons_self
    have hzero : byte c ≠ byte '0' := by
      intro heq
      have hfirst := eq_of_byte_eq (toNat_lt_of_isDigit hc) (by decide) heq
      exact hhead (congrArg some hfirst)
    rw [utf8Chars_cons_ascii (toNat_lt_of_isDigit hc), List.cons_append] at htake ⊢
    rw [readNumber, if_neg hzero, digit?_byte hc, if_pos Option.isSome_some, htake]
    dsimp only
    rw [ht.startsWithDigit]
    exact finishInteger_of_stops ht negative n

end MailServer.Json
