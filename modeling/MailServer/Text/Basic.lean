/-!
# Texts

Names, header values, credentials and settings are texts, and all of them are taken apart in the same few
ways. The functions work on lists of characters or of bytes, so that each has one equation per
constructor.

* `MailServer.Text.cutFirst` and `MailServer.Text.cutLast` cut at the first and the last occurrence of a
  character; `MailServer.Text.pieces` cuts at every separator, and there is always at least one piece.
* `MailServer.Text.headsBefore` lists the beginnings that end before an occurrence.
* `MailServer.Text.sameFolded` compares without letter case; `MailServer.Text.folded` lowers the letters.
* `MailServer.Text.isBlank` is the class of blanks and `MailServer.Text.trim` drops them at both ends.
* `MailServer.Text.natural?` is the number of 64 bits that a text stands for.
* `MailServer.Text.utf8` is the encoding of a text and `MailServer.Text.ofUtf8?` the text that bytes encode;
  `MailServer.Text.utf8Prefix` counts the bytes before the first one that no text can go on with.
-/

namespace MailServer.Text

/-! ## Cutting at a character -/

/-- The characters before and after the first `d`, if `d` occurs. -/
def cutFirst (d : Char) : List Char → Option (List Char × List Char)
  | [] => none
  | c :: cs => if c = d then some ([], cs) else (cutFirst d cs).map fun (a, b) => (c :: a, b)

/-- The characters before and after the last `d`, if `d` occurs. -/
def cutLast (d : Char) : List Char → Option (List Char × List Char)
  | [] => none
  | c :: cs =>
    match cutLast d cs with
    | some (a, b) => some (c :: a, b)
    | none => if c = d then some ([], cs) else none

/-- The pieces between the characters that separate, from left to right. -/
def pieces (separates : Char → Bool) : List Char → List (List Char)
  | [] => [[]]
  | c :: cs =>
    if separates c then [] :: pieces separates cs
    else match pieces separates cs with
      | [] => [[c]]
      | p :: ps => (c :: p) :: ps

/-- For each `d` in the text, the characters before it: one list per occurrence, shortest first. -/
def headsBefore (d : Char) : List Char → List (List Char)
  | [] => []
  | c :: cs =>
    if c = d then [] :: (headsBefore d cs).map (c :: ·) else (headsBefore d cs).map (c :: ·)

/-- The text without one `d` at its end, if it ends in `d`. -/
def dropOneLast (d : Char) (cs : List Char) : List Char :=
  match cutLast d cs with
  | some (a, []) => a
  | _ => cs

theorem cutFirst_eq_none_iff {d : Char} {cs : List Char} : cutFirst d cs = none ↔ d ∉ cs := by
  induction cs with
  | nil => simp [cutFirst]
  | cons c cs ih =>
    by_cases h : c = d
    · simp [cutFirst, h]
    · simp [cutFirst, h, ih, Ne.symm h]

theorem append_of_cutFirst {d : Char} {cs a b : List Char} (h : cutFirst d cs = some (a, b)) :
    cs = a ++ d :: b ∧ d ∉ a := by
  induction cs generalizing a with
  | nil => simp [cutFirst] at h
  | cons c cs ih =>
    by_cases hc : c = d
    · simp only [cutFirst, hc, if_true, Option.some.injEq, Prod.mk.injEq] at h
      obtain ⟨rfl, rfl⟩ := h
      simp [hc]
    · simp only [cutFirst, hc, if_false, Option.map_eq_some_iff] at h
      obtain ⟨⟨x, y⟩, hxy, he⟩ := h
      simp only [Prod.mk.injEq] at he
      obtain ⟨rfl, rfl⟩ := he
      obtain ⟨rfl, hx⟩ := ih hxy
      exact ⟨rfl, by simp [hx, Ne.symm hc]⟩

theorem cutLast_eq_none_iff {d : Char} {cs : List Char} : cutLast d cs = none ↔ d ∉ cs := by
  induction cs with
  | nil => simp [cutLast]
  | cons c cs ih =>
    cases hcs : cutLast d cs with
    | none =>
      have := ih.1 hcs
      by_cases h : c = d
      · simp [cutLast, hcs, h]
      · simp [cutLast, hcs, h, this, Ne.symm h]
    | some p =>
      have : ¬ d ∉ cs := fun hn => by simp [ih.2 hn] at hcs
      simp only [Classical.not_not] at this
      simp [cutLast, hcs, this]

theorem append_of_cutLast {d : Char} {cs a b : List Char} (h : cutLast d cs = some (a, b)) :
    cs = a ++ d :: b ∧ d ∉ b := by
  induction cs generalizing a with
  | nil => simp [cutLast] at h
  | cons c cs ih =>
    cases hcs : cutLast d cs with
    | none =>
      by_cases hc : c = d
      · simp only [cutLast, hcs, hc, if_true, Option.some.injEq, Prod.mk.injEq] at h
        obtain ⟨rfl, rfl⟩ := h
        exact ⟨by simp [hc], cutLast_eq_none_iff.1 hcs⟩
      · simp [cutLast, hcs, hc] at h
    | some p =>
      obtain ⟨x, y⟩ := p
      simp only [cutLast, hcs, Option.some.injEq, Prod.mk.injEq] at h
      obtain ⟨rfl, rfl⟩ := h
      obtain ⟨rfl, hy⟩ := ih hcs
      exact ⟨rfl, hy⟩

theorem pieces_ne_nil (p : Char → Bool) (cs : List Char) : pieces p cs ≠ [] := by
  cases cs with
  | nil => simp [pieces]
  | cons c cs =>
    simp only [pieces]
    split
    · simp
    · split <;> simp

/-! ## Letter case

Names of headers, schemes and mailboxes are compared with the letters A to Z read as a to z. No other
character has a case here, so a comparison never depends on a language. -/

/-- The text with each letter A to Z replaced by its lower-case form. -/
def folded (s : String) : String := String.ofList (s.toList.map Char.toLower)

/-- The two texts differ at most in the case of the letters A to Z. -/
def sameFolded (a b : String) : Bool := a.toList.map Char.toLower == b.toList.map Char.toLower

theorem sameFolded_iff {a b : String} :
    sameFolded a b = true ↔ a.toList.map Char.toLower = b.toList.map Char.toLower := by
  simp [sameFolded]

theorem sameFolded_refl (a : String) : sameFolded a a = true := by simp [sameFolded]

theorem sameFolded_comm (a b : String) : sameFolded a b = sameFolded b a := by
  rw [sameFolded, sameFolded, Bool.beq_comm]

theorem sameFolded_congr {a b : String} (h : sameFolded a b = true) (c : String) :
    sameFolded a c = sameFolded b c := by
  rw [sameFolded, sameFolded, sameFolded_iff.mp h]

/-! ## Blanks

A blank is a character with the Unicode property `White_Space`. Header values, versions and
credentials are read without the blanks around them. -/

/-- The character has the Unicode property `White_Space`. -/
def isBlank (c : Char) : Bool :=
  let n := c.toNat
  (9 ≤ n && n ≤ 13) || n == 0x20 || n == 0x85 || n == 0xA0 || n == 0x1680 ||
    (0x2000 ≤ n && n ≤ 0x200A) || n == 0x2028 || n == 0x2029 || n == 0x202F || n == 0x205F ||
    n == 0x3000

/-- The characters without the blanks at either end. -/
def trimChars (cs : List Char) : List Char :=
  ((cs.dropWhile isBlank).reverse.dropWhile isBlank).reverse

/-- The text without the blanks at either end. -/
def trim (s : String) : String := String.ofList (trimChars s.toList)

example : ['\x0b', '\x0c', '\u0085', '\u2003', '\u3000'].all isBlank = true := by decide
example : ['\u200b', '\ufeff', '\x1c'].any isBlank = false := by decide

/-! ## Natural numbers

Numbers on the command line and in the environment are written in decimal, with leading zeros and
a plus sign if one likes. -/

/-- The value of decimal digits behind `n`. -/
def digitsFrom (n : Nat) : List Char → Option Nat
  | [] => some n
  | c :: cs => if c.isDigit then digitsFrom (n * 10 + (c.toNat - '0'.toNat)) cs else none

/-- The digits behind a plus sign, if there is one. -/
def dropPlus : List Char → List Char
  | '+' :: cs => cs
  | cs => cs

/-- The number of 64 bits that the characters stand for: at least one digit. -/
def natural? (cs : List Char) : Option UInt64 :=
  let digits := dropPlus cs
  if digits.isEmpty then none
  else do
    let n ← digitsFrom 0 digits
    if n < Nat.pow 2 64 then some n.toUInt64 else none

example : natural? ['+', '0', '7'] = some 7 := by decide
example : natural? ['+'] = none := by decide
example : natural? "18446744073709551616".toList = none := by decide +kernel

/-! ## Bytes

Requests arrive and answers leave as bytes of UTF-8. Bytes are kept as a list, which is what the
readers recurse on. -/

/-- The bytes of a list of characters. -/
def utf8Chars (cs : List Char) : List UInt8 := cs.flatMap String.utf8EncodeChar

/-- The bytes of a text. -/
def utf8 (s : String) : List UInt8 := utf8Chars s.toList

/-- The text that the bytes encode; `none` where they are not well-formed UTF-8. -/
def ofUtf8? (bytes : List UInt8) : Option String := String.fromUTF8? ⟨bytes.toArray⟩

/-- A byte that goes on a character of several bytes. -/
def isContinuation (b : UInt8) : Bool := 0x80 ≤ b && b ≤ 0xBF

/-- How many bytes at the start are whole, well-formed characters. -/
def utf8Prefix : List UInt8 → Nat
  | a :: b :: c :: d :: rest =>
    if a < 0x80 then 1 + utf8Prefix (b :: c :: d :: rest)
    else if 0xC2 ≤ a && a ≤ 0xDF && isContinuation b then 2 + utf8Prefix (c :: d :: rest)
    else if (ofUtf8? [a, b, c]).isSome then 3 + utf8Prefix (d :: rest)
    else if (ofUtf8? [a, b, c, d]).isSome then 4 + utf8Prefix rest
    else 0
  | [a, b, c] =>
    if a < 0x80 then 1 + utf8Prefix [b, c]
    else if 0xC2 ≤ a && a ≤ 0xDF && isContinuation b then 2 + utf8Prefix [c]
    else if (ofUtf8? [a, b, c]).isSome then 3
    else 0
  | [a, b] =>
    if a < 0x80 then 1 + utf8Prefix [b]
    else if 0xC2 ≤ a && a ≤ 0xDF && isContinuation b then 2
    else 0
  | [a] => if a < 0x80 then 1 else 0
  | [] => 0

end MailServer.Text
