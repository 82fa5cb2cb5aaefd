import Mathlib.Data.String.Basic
import MailServer.Text.Basic

/-!
# Text and its bytes

A character below U+0080 is its own byte, and every byte of another character is at least 0x80. So the
bytes that JSON gives a meaning to stand for themselves wherever they occur. The first byte grows with the
length of the encoding, and within one length the bytes grow with the character; so texts are in the order
of their bytes.

* `utf8EncodeChar_cases` — the bytes of a character.
* `ofUtf8?_utf8` — the bytes of a text are read back as the text.
* `utf8_lt_utf8_iff` — the order of texts is the order of their bytes; `utf8Chars_prefix_iff` — the bytes of
  one text begin those of another.
* `toString_injective` — the digits of a number tell it.
-/

namespace MailServer.Text

/-! ## Bytes of a character -/

theorem char_toNat_lt (c : Char) : c.toNat < 0x110000 := by
  have hvalid : c.val.toNat.isValidChar := c.valid
  have hvalue : c.val.toNat = c.toNat := rfl
  unfold Nat.isValidChar at hvalid
  omega

/-- A character is one byte below 0x80, or all of its bytes are at least 0x80. -/
theorem utf8EncodeChar_cases (c : Char) :
    (c.toNat < 0x80 ∧ String.utf8EncodeChar c = [UInt8.ofNat c.toNat]) ∨
    (0x80 ≤ c.toNat ∧ ∀ b ∈ String.utf8EncodeChar c, 0x80 ≤ b) := by
  have hvalue : c.val.toNat = c.toNat := rfl
  have hmost : c.toNat < 0x110000 := char_toNat_lt c
  unfold String.utf8EncodeChar
  rw [hvalue]
  dsimp only
  split
  · exact Or.inl ⟨by omega, rfl⟩
  -- in every longer form each byte is a remainder plus at least 0x80
  · refine Or.inr ⟨by omega, ?_⟩
    split
    · simp [UInt8.le_iff_toNat_le]
      omega
    · split
      · simp [UInt8.le_iff_toNat_le]
        omega
      · simp [UInt8.le_iff_toNat_le]
        omega

@[simp] theorem utf8Chars_nil : utf8Chars [] = [] := rfl

theorem utf8Chars_cons (c : Char) (cs : List Char) :
    utf8Chars (c :: cs) = String.utf8EncodeChar c ++ utf8Chars cs := List.flatMap_cons

@[simp] theorem utf8Chars_append (cs ds : List Char) :
    utf8Chars (cs ++ ds) = utf8Chars cs ++ utf8Chars ds := List.flatMap_append

/-- The bytes of a text are those of a text. -/
theorem ofUtf8?_utf8 (s : String) : ofUtf8? (utf8 s) = some s := by
  have hbytes : (⟨(utf8 s).toArray⟩ : ByteArray) = s.toByteArray := by
    rw [← String.utf8Encode_toList]
    show _ = (utf8 s).toByteArray
    exact ByteArray.ext (List.data_toByteArray).symm
  unfold ofUtf8? String.fromUTF8?
  rw [hbytes, dif_pos s.isValidUTF8]
  rfl

/-! ## Order -/

/-- The bytes of a smaller character come before those of a larger one, whatever follows them. -/
theorem utf8EncodeChar_append_lt {c d : Char} (h : c < d) (s t : List UInt8) :
    String.utf8EncodeChar c ++ s < String.utf8EncodeChar d ++ t := by
  have hlt : c.toNat < d.toNat := h
  have hmost := char_toNat_lt d
  have hc : c.val.toNat = c.toNat := rfl
  have hd : d.val.toNat = d.toNat := rfl
  unfold String.utf8EncodeChar
  rw [hc, hd]
  generalize c.toNat = n at hlt ⊢
  generalize d.toNat = m at hlt hmost ⊢
  have hbyte : ∀ k, k < 256 → (UInt8.ofNat k).toNat = k := fun k hk => UInt8.toNat_ofNat_of_lt' hk
  -- the digits of a number to base 64
  have hdigits : ∀ k, k / 64 / 64 = k / 4096 ∧ k / 4096 / 64 = k / 262144 := fun k => by
    rw [Nat.div_div_eq_div_mul, Nat.div_div_eq_div_mul]
    exact ⟨rfl, rfl⟩
  have hn := hdigits n
  have hm := hdigits m
  have hfirst : n / 262144 % 8 = n / 262144 ∧ m / 262144 % 8 = m / 262144 := by omega
  -- a longer encoding begins with a larger byte; in one of the same length the first digit that differs
  -- decides
  dsimp only
  split_ifs <;>
    (simp only [List.cons_append, List.nil_append, List.cons_lt_cons_iff, UInt8.lt_iff_toNat_lt,
      ← UInt8.toNat_inj]
     simp (disch := omega) only [hbyte]
     omega)

theorem utf8Chars_lt {cs ds : List Char} (h : cs < ds) : utf8Chars cs < utf8Chars ds := by
  induction cs generalizing ds with
  | nil =>
    cases ds with
    | nil => exact absurd h (List.lt_irrefl _)
    | cons d ds =>
      rw [utf8Chars_cons]
      cases hbytes : String.utf8EncodeChar d with
      | nil => exact absurd hbytes String.utf8EncodeChar_ne_nil
      | cons b bs => exact List.nil_lt_cons _ _
  | cons c cs ih =>
    cases ds with
    | nil => exact absurd h (List.not_lt_nil _)
    | cons d ds =>
      rw [utf8Chars_cons, utf8Chars_cons]
      rcases List.cons_lt_cons_iff.mp h with hcd | ⟨rfl, htail⟩
      · exact utf8EncodeChar_append_lt hcd _ _
      · exact List.append_left_lt (ih htail)

/-- **Texts are in the order of their bytes.** -/
theorem utf8_lt_utf8_iff {a b : String} : utf8 a < utf8 b ↔ a < b := by
  have hmono : ∀ {a b : String}, a < b → utf8 a < utf8 b := fun h =>
    utf8Chars_lt (String.lt_iff_toList_lt.mp h)
  refine ⟨fun h => ?_, hmono⟩
  rcases lt_trichotomy a b with hlt | rfl | hgt
  · exact hlt
  · exact absurd h (List.lt_irrefl _)
  · exact absurd (List.lt_trans h (hmono hgt)) (List.lt_irrefl _)

/-- Bytes of a text that begin like those of another one are those of its beginning. Induction on the
beginning: of two characters neither begins like the other. -/
theorem utf8Chars_prefix_iff {cs ds : List Char} : utf8Chars cs <+: utf8Chars ds ↔ cs <+: ds := by
  constructor
  · intro h
    induction cs generalizing ds with
    | nil => exact List.nil_prefix
    | cons c cs ih =>
      obtain ⟨t, ht⟩ := h
      rw [utf8Chars_cons, List.append_assoc] at ht
      cases ds with
      | nil => simp [String.utf8EncodeChar_ne_nil] at ht
      | cons d ds =>
        rw [utf8Chars_cons] at ht
        rcases lt_trichotomy c d with hlt | rfl | hgt
        · exact absurd (ht ▸ utf8EncodeChar_append_lt hlt _ _) (List.lt_irrefl _)
        · exact (List.prefix_cons_inj c).mpr (ih ⟨t, List.append_cancel_left ht⟩)
        · exact absurd (ht ▸ utf8EncodeChar_append_lt hgt _ _) (List.lt_irrefl _)
  · rintro ⟨t, rfl⟩
    exact ⟨utf8Chars t, (utf8Chars_append cs t).symm⟩

/-! ## Numbers -/

theorem toString_injective : Function.Injective (toString : Nat → String) := by
  intro m n h
  rw [Nat.toString_eq_ofList_toDigits, Nat.toString_eq_ofList_toDigits] at h
  have hvalue := congrArg (Nat.ofDigitChars 10 · 0) (String.ofList_injective h)
  rwa [Nat.ofDigitChars_ten_toDigits, Nat.ofDigitChars_ten_toDigits] at hvalue

end MailServer.Text
