import MailServer.Config.Document
import MailServer.Proofs.Written

/-!
# Configurations that are read back

A configuration is written as an object with all of its fields. An object with some of them, in any order and
with any blanks between its tokens, is read as the configuration that has these fields, and each other one by
default.

* `Spaced` — a text has given tokens, with blanks around them.
* `readField_written` — the value of a field is read back.
* `readMembers_more`, `readSettings_spaced` — the members of an object, each setting a field that is free.
* `parse_spaced` — reading what was written, and reading some of the fields in any form.
-/

namespace MailServer.Json

open Text (utf8Chars utf8Chars_append utf8Chars_cons)

/-! ## Tokens and blanks -/

/-- Blanks between tokens. -/
def Gap (cs : List Char) : Prop := ∀ c ∈ cs, c = ' ' ∨ c = '\t' ∨ c = '\n' ∨ c = '\r'

instance (cs : List Char) : Decidable (Gap cs) :=
  List.decidableBAll (fun c : Char => c = ' ' ∨ c = '\t' ∨ c = '\n' ∨ c = '\r') cs

/-- The text has the given tokens in their order, with blanks before, between and behind them. -/
inductive Spaced : List (List Char) → List Char → Prop
  | nil {gap : List Char} (h : Gap gap) : Spaced [] gap
  | cons {gap : List Char} (h : Gap gap) (token : List Char) {tokens : List (List Char)} {text : List Char}
      (ht : Spaced tokens text) : Spaced (token :: tokens) (gap ++ token ++ text)

variable {gap token text : List Char} {tokens : List (List Char)}

theorem skipBlank_gap (h : Gap gap) (s : List UInt8) : skipBlank (utf8Chars gap ++ s) = skipBlank s := by
  induction gap with
  | nil => rfl
  | cons c gap ih =>
    have hblank : c.toNat < 0x80 ∧ isBlankByte (byte c) = true := by
      rcases h c List.mem_cons_self with rfl | rfl | rfl | rfl <;> decide
    rw [utf8Chars_cons_ascii hblank.1, List.cons_append, skipBlank, hblank.2, if_pos rfl]
    exact ih fun d hd => h d (List.mem_cons_of_mem _ hd)

theorem Spaced.bytes (h : Spaced (token :: tokens) text) : ∃ gap rest, Gap gap ∧ Spaced tokens rest ∧
    utf8Chars text = utf8Chars gap ++ (utf8Chars token ++ utf8Chars rest) := by
  cases h with
  | @cons gap h token tokens rest ht =>
    exact ⟨gap, rest, h, ht, by rw [utf8Chars_append, utf8Chars_append, List.append_assoc]⟩

/-- A token of one character is the next byte behind the blanks. -/
theorem Spaced.skipBlank_eq {c : Char} (h : Spaced ([c] :: tokens) text) (hc : c.toNat < 0x80)
    (hblank : isBlankByte (byte c) = false) :
    ∃ rest, Spaced tokens rest ∧ skipBlank (utf8Chars text) = byte c :: utf8Chars rest := by
  obtain ⟨gap, rest, hgap, hrest, htext⟩ := h.bytes
  refine ⟨rest, hrest, ?_⟩
  rw [htext, skipBlank_gap hgap, utf8Chars_cons_ascii hc]
  exact skipBlank_cons hblank _

/-- Neither blanks nor a comma nor a closing brace go on a number. -/
theorem Spaced.stops {c : Char} (h : Spaced ([c] :: tokens) text) (hc : c = ',' ∨ c = '\x7d') :
    Stops (utf8Chars text) := by
  obtain ⟨gap, rest, hgap, -, htext⟩ := h.bytes
  rw [htext]
  cases gap with
  | nil => rcases hc with rfl | rfl <;> exact ⟨rfl, by decide, by decide, by decide⟩
  | cons d gap => rcases hgap d List.mem_cons_self with rfl | rfl | rfl | rfl <;>
      exact ⟨rfl, by decide, by decide, by decide⟩

/-- Tokens of which a text is made as they are, without any blanks. -/
theorem spaced_flatten (tokens : List (List Char)) : Spaced tokens tokens.flatten := by
  induction tokens with
  | nil => exact .nil nofun
  | cons token tokens ih => exact @Spaced.cons [] nofun token tokens _ ih

theorem Spaced.length_le (h : Spaced tokens text) : tokens.flatten.length ≤ text.length := by
  induction h with
  | nil => exact Nat.zero_le _
  | cons h token ht ih =>
    rw [List.flatten_cons, List.length_append, List.length_append, List.length_append]
    omega

theorem length_le_utf8Chars (cs : List Char) : cs.length ≤ (utf8Chars cs).length := by
  induction cs with
  | nil => exact Nat.le_refl 0
  | cons c cs ih =>
    have hpos : 0 < (String.utf8EncodeChar c).length :=
      List.length_pos_iff.mpr String.utf8EncodeChar_ne_nil
    rw [utf8Chars_cons, List.length_append, List.length_cons]
    omega

end MailServer.Json

namespace MailServer.Config

open Json (Gap Spaced Stops Value byte escapedChar nextMember readColon skipBlank stringChars)
open Text (utf8Chars)

/-! ## Values of fields -/

section Values

variable {t : List UInt8}

theorem readFormat_written (format : LogFormat) (t : List UInt8) :
    readFormat (utf8Chars (Value.string format.name).chars ++ t) = .ok (format, t) := by
  have hskip : ∀ s, skipBlank (byte '"' :: s) = byte '"' :: s := Json.skipBlank_cons rfl
  rw [Value.chars, Json.utf8Chars_stringChars, readFormat, hskip]
  dsimp only
  rw [if_pos rfl]
  dsimp only [bind, Except.bind]
  rw [Json.readString_written]
  dsimp only
  rw [formatOf, LogFormat.ofName?_name]
  rfl

theorem readLength_written (n : UInt64) (ht : Stops t) :
    readLength (utf8Chars (Value.ofNat n).chars ++ t) = .ok (n, t) := by
  obtain ⟨b, s, hdigit, htext⟩ := Json.exists_toDigits n.toNat
  have hchars : (Value.ofNat n).chars = Nat.toDigits 10 n.toNat := rfl
  have hnumber := Json.readNumber_written n.toNat_lt false ht
  rw [htext, List.cons_append] at hnumber
  have hminus : b ≠ byte '-' := Json.ne_of_digit hdigit rfl
  rw [hchars, htext, List.cons_append, readLength, Json.skipBlank_cons (Json.isBlankByte_of_digit hdigit)]
  dsimp only
  rw [if_neg hminus, if_pos hdigit, hnumber]
  simp [Json.integerNumber, bind, Except.bind]

/-- The value of a field is read back, where what stands behind it cannot go on a number. -/
theorem readField_written (f : Field) (v : f.Value) (ht : Stops t) :
    readField f (utf8Chars (fieldValue f v).chars ++ t) = .ok (v, t) := by
  cases f with
  | logFormat => exact readFormat_written v t
  | maxNameLength => exact readLength_written v ht
  | _ => exact Json.readText_written "a string" v t

theorem readField_gap (f : Field) {gap : List Char} (h : Gap gap) (s : List UInt8) :
    readField f (utf8Chars gap ++ s) = readField f s := by
  have hskip := Json.skipBlank_gap h s
  cases f with
  | logFormat => simp only [readField, readFormat, hskip]
  | maxNameLength => simp only [readField, readLength, hskip]
  | _ => simp only [readField, Json.readText, hskip]

end Values

/-! ## Members -/

/-- The tokens of members behind the first one, and of the closing brace. -/
def moreTokens (c : Config) : List Field → List (List Char)
  | [] => [['\x7d']]
  | f :: fs => [','] :: stringChars f.name :: [':'] :: (fieldValue f (c.get f)).chars :: moreTokens c fs

/-- The tokens of an object that has the given fields of a configuration, in the given order. -/
def objectTokens (c : Config) : List Field → List (List Char)
  | [] => [['\x7b'], ['\x7d']]
  | f :: fs => ['\x7b'] :: stringChars f.name :: [':'] :: (fieldValue f (c.get f)).chars :: moreTokens c fs

/-- Sets the given fields as a configuration has them. -/
def Settings.setAll (s : Settings) (c : Config) (fs : List Field) : Settings :=
  fs.foldl (fun s f => s.set f (c.get f)) s

section Members

variable {c : Config} {f : Field} {fs : List Field} {s : Settings} {text : List Char} {count : Nat}

theorem stops_more (h : Spaced (moreTokens c fs) text) : Stops (utf8Chars text) := by
  cases fs with
  | nil => exact h.stops (Or.inr rfl)
  | cons f fs => exact h.stops (Or.inl rfl)

/-- The name of a member is the next string behind the blanks. -/
theorem spaced_name {name : String} {tokens : List (List Char)} (h : Spaced (stringChars name :: tokens) text) :
    ∃ rest, Spaced tokens rest ∧ skipBlank (utf8Chars text) =
      byte '"' :: (utf8Chars (name.toList.flatMap escapedChar) ++ byte '"' :: utf8Chars rest) := by
  obtain ⟨gap, rest, hgap, hrest, htext⟩ := h.bytes
  refine ⟨rest, hrest, ?_⟩
  rw [htext, Json.skipBlank_gap hgap, Json.utf8Chars_stringChars]
  exact Json.skipBlank_cons rfl _

/-- A member behind its name sets its field. -/
theorem readMember_spaced (hfree : s.value? f = none)
    (h : Spaced ([':'] :: (fieldValue f (c.get f)).chars :: moreTokens c fs) text) :
    ∃ rest, Spaced (moreTokens c fs) rest ∧
      readMember s f.name (utf8Chars text) = .ok (s.set f (c.get f), utf8Chars rest) := by
  obtain ⟨behind, hbehind, hcolon⟩ := h.skipBlank_eq (by decide) rfl
  obtain ⟨gap, rest, hgap, hrest, htext⟩ := hbehind.bytes
  have hread : readColon (utf8Chars text) = .ok ((), utf8Chars behind) := by
    rw [readColon, hcolon]
    rfl
  have hvalue : readField f (utf8Chars behind) = .ok (c.get f, utf8Chars rest) := by
    rw [htext, readField_gap f hgap]
    exact readField_written f _ (stops_more hrest)
  refine ⟨rest, hrest, ?_⟩
  rw [readMember, Field.ofName?_name]
  dsimp only [bind, Except.bind]
  rw [hfree, hread, if_neg (by simp)]
  dsimp only
  rw [hvalue]
  rfl

/-- A member, and those behind it. -/
theorem readMembers_cons {first : Bool} {bytes : List UInt8} {s' : Settings} (hfree : s.value? f = none)
    (hmove : nextMember first bytes =
      .ok (some (utf8Chars (f.name.toList.flatMap escapedChar) ++ byte '"' :: utf8Chars text)))
    (h : Spaced ([':'] :: (fieldValue f (c.get f)).chars :: moreTokens c fs) text)
    (hrest : ∀ rest, Spaced (moreTokens c fs) rest → ∃ last, Gap last ∧
      readMembers count false (s.set f (c.get f)) (utf8Chars rest) = .ok (s', utf8Chars last)) :
    ∃ last, Gap last ∧ readMembers (count + 1) first s bytes = .ok (s', utf8Chars last) := by
  obtain ⟨rest, hspaced, hmember⟩ := readMember_spaced hfree h
  obtain ⟨last, hlast, hread⟩ := hrest rest hspaced
  refine ⟨last, hlast, ?_⟩
  rw [readMembers, hmove]
  dsimp only [bind, Except.bind]
  rw [Json.readString_written]
  dsimp only
  rw [hmember]
  exact hread

/-- The closing brace. -/
theorem readMembers_close (first : Bool) (h : Spaced [['\x7d']] text) :
    ∃ last, Gap last ∧ readMembers (count + 1) first s (utf8Chars text) = .ok (s, utf8Chars last) := by
  obtain ⟨last, hlast, hskip⟩ := h.skipBlank_eq (by decide) rfl
  cases hlast with
  | nil hgap =>
    refine ⟨last, hgap, ?_⟩
    rw [readMembers, nextMember, hskip]
    rfl

/-- A field that is set leaves the others free. -/
theorem free_set {v : f.Value} (hnew : f ∉ fs) (hfree : ∀ g ∈ fs, s.value? g = none) :
    ∀ g ∈ fs, (s.set f v).value? g = none := by
  intro g hg
  have hne : f ≠ g := fun heq => hnew (heq ▸ hg)
  rw [Settings.value?_set_other s v hne]
  exact hfree g hg

/-- The members behind the first one. Induction on their fields. -/
theorem readMembers_more (hnodup : fs.Nodup) (hfree : ∀ f ∈ fs, s.value? f = none)
    (h : Spaced (moreTokens c fs) text) (hcount : fs.length < count) :
    ∃ last, Gap last ∧ readMembers count false s (utf8Chars text) = .ok (s.setAll c fs, utf8Chars last) := by
  induction fs generalizing s text count with
  | nil =>
    cases count with
    | zero => exact absurd hcount (Nat.not_lt_zero _)
    | succ count => exact readMembers_close false h
  | cons f fs ih =>
    cases count with
    | zero => exact absurd hcount (Nat.not_lt_zero _)
    | succ count =>
      obtain ⟨hnew, hnodup⟩ := List.nodup_cons.mp hnodup
      obtain ⟨behind, hbehind, hcomma⟩ := h.skipBlank_eq (by decide) rfl
      obtain ⟨rest, hrest, hname⟩ := spaced_name hbehind
      have hmove : nextMember false (utf8Chars text) =
          .ok (some (utf8Chars (f.name.toList.flatMap escapedChar) ++ byte '"' :: utf8Chars rest)) := by
        rw [nextMember, hcomma]
        dsimp only
        rw [if_neg (by decide), if_neg (by decide), if_pos rfl, hname]
        rfl
      have hothers := free_set (v := c.get f) hnew fun g hg => hfree g (List.mem_cons_of_mem _ hg)
      exact readMembers_cons (hfree f List.mem_cons_self) hmove hrest fun rest hrest =>
        ih hnodup hothers hrest (Nat.lt_of_succ_lt_succ hcount)

theorem length_le_more (c : Config) (fs : List Field) : fs.length ≤ (moreTokens c fs).flatten.length := by
  induction fs with
  | nil => exact Nat.zero_le _
  | cons f fs ih =>
    simp only [moreTokens, List.flatten_cons, List.length_append, List.length_cons, List.length_nil]
    omega

/-- **Objects.** The fields that are there are set, in whatever order they are. -/
theorem readSettings_spaced (hnodup : fs.Nodup) (h : Spaced (objectTokens c fs) text) :
    ∃ last, Gap last ∧ readSettings (utf8Chars text) = .ok (Settings.empty.setAll c fs, utf8Chars last) := by
  -- the first member has no comma in front of it
  cases fs with
  | nil =>
    obtain ⟨behind, hbehind, hbrace⟩ := h.skipBlank_eq (by decide) rfl
    obtain ⟨last, hlast, hread⟩ := readMembers_close true hbehind
    refine ⟨last, hlast, ?_⟩
    rw [readSettings, hbrace]
    exact hread
  | cons f fs =>
    obtain ⟨behind, hbehind, hbrace⟩ := h.skipBlank_eq (by decide) rfl
    obtain ⟨hnew, hnodup⟩ := List.nodup_cons.mp hnodup
    obtain ⟨rest, hrest, hname⟩ := spaced_name hbehind
    have hmove : nextMember true (utf8Chars behind) =
        .ok (some (utf8Chars (f.name.toList.flatMap escapedChar) ++ byte '"' :: utf8Chars rest)) := by
      rw [nextMember, hname]
      rfl
    -- the count is the number of bytes, and every member takes one at least
    have hcount : fs.length < (utf8Chars behind).length := by
      have hlength := hbehind.length_le
      have hbytes := Json.length_le_utf8Chars behind
      have hmore := length_le_more c fs
      simp only [List.flatten_cons, List.length_append, List.length_singleton] at hlength
      omega
    have hothers : ∀ g ∈ fs, (Settings.empty.set f (c.get f)).value? g = none :=
      free_set hnew fun g _ => rfl
    obtain ⟨last, hlast, hread⟩ := readMembers_cons rfl hmove hrest fun rest hrest =>
      readMembers_more hnodup hothers hrest hcount
    refine ⟨last, hlast, ?_⟩
    rw [readSettings, hbrace]
    exact hread

end Members

/-! ## Configurations -/

/-- What has been set is as the configuration has it, and nothing else is touched. Induction on the fields. -/
theorem Settings.value?_setAll (s : Settings) (c : Config) (fs : List Field) (f : Field) :
    (s.setAll c fs).value? f = if f ∈ fs then some (c.get f) else s.value? f := by
  induction fs generalizing s with
  | nil => rfl
  | cons g fs ih =>
    show ((s.set g (c.get g)).setAll c fs).value? f = _
    rw [ih]
    by_cases hmem : f ∈ fs
    · simp [hmem]
    by_cases hfg : g = f
    · subst hfg
      simp [hmem]
    · simp [hmem, value?_set_other s _ hfg, Ne.symm hfg]

theorem Settings.get_complete (s : Settings) (f : Field) :
    s.complete.get f = (s.value? f).getD (standard.get f) := by
  rw [complete, get_ofFields, fallback_eq]

/-- The text of an object is that of its tokens, without any blanks. -/
theorem flatten_objectTokens (c : Config) (fs : List Field) :
    (objectTokens c fs).flatten = (Value.object (fs.map fun f => (f.name, fieldValue f (c.get f)))).chars := by
  have hmore : ∀ fs : List Field, (moreTokens c fs).flatten =
      Value.moreMembersChars (fs.map fun f => (f.name, fieldValue f (c.get f))) := by
    intro fs
    induction fs with
    | nil => rfl
    | cons f fs ih => simp [moreTokens, Value.moreMembersChars, ih]
  cases fs with
  | nil => rfl
  | cons f fs => simp [objectTokens, Value.chars, Value.membersChars, hmore]

/-- Reading some of the fields of a configuration. -/
theorem parse_of_spaced {c : Config} {fs : List Field} {text : List Char} (hnodup : fs.Nodup)
    (h : Spaced (objectTokens c fs) text) :
    ∃ read, parse (String.ofList text) = .ok read ∧
      ∀ f, read.get f = if f ∈ fs then c.get f else standard.get f := by
  obtain ⟨last, hlast, hread⟩ := readSettings_spaced hnodup h
  refine ⟨(Settings.empty.setAll c fs).complete, ?_, fun f => ?_⟩
  · have hend : Json.readEnd (utf8Chars last) = .ok ((), []) := by
      have hskip := Json.skipBlank_gap hlast []
      rw [List.append_nil] at hskip
      rw [Json.readEnd, hskip]
      rfl
    rw [parse, Text.utf8, String.toList_ofList, Json.readAll]
    dsimp only [bind, Except.bind]
    rw [hread]
    dsimp only
    rw [hend]
    rfl
  · rw [Settings.get_complete, Settings.value?_setAll]
    split
    · rfl
    · rfl

/-- **Reading what was written.** Every configuration is read back from its text. And from an object that has
some of its fields, each at most once, in any order and with any blanks between the tokens, the configuration
is read that has these fields and is as by default in each other one. -/
theorem parse_spaced (c : Config) :
    parse (render c) = .ok c ∧
    ∀ (fs : List Field) (text : List Char), fs.Nodup → Spaced (objectTokens c fs) text →
      ∃ read, parse (String.ofList text) = .ok read ∧
        ∀ f, read.get f = if f ∈ fs then c.get f else standard.get f := by
  refine ⟨?_, fun fs text hnodup h => parse_of_spaced hnodup h⟩
  have hall : Spaced (objectTokens c Field.all) (Value.object (Field.all.map fun f =>
      (f.name, fieldValue f (c.get f)))).chars := by
    rw [← flatten_objectTokens]
    exact Json.spaced_flatten _
  obtain ⟨read, hread, hfields⟩ := parse_of_spaced (by decide) hall
  have hsame : read.get = c.get := by
    funext f
    rw [hfields, if_pos (by cases f <;> decide)]
  rw [render, Value.render, hread, ← ofFields_get read, hsame, ofFields_get]

/-- Two fields, not in the order in which they are written, with a quote, a backslash, a control character and
a character of four bytes in one and the largest limit in the other. The form of the log is left out. -/
theorem parse_spaced_two_fields :
    let c : Config :=
      { standard with logFormat := .pretty, maxNameLength := 18446744073709551615, localUser := "\"a\\\x01😀" }
    let fs : List Field := [.localUser, .maxNameLength]
    let text := ("\n\x7b \"local_user\" :\t\"\\\"a\\\\\\u0001😀\"," ++
      "\"max_mailbox_name_length\":18446744073709551615\r\x7d  ").toList
    fs.Nodup ∧ Spaced (objectTokens c fs) text ∧ parse (render c) = .ok c ∧
    ∃ read, parse (String.ofList text) = .ok read ∧ read.localUser = "\"a\\\x01😀" ∧
      read.maxNameLength = 18446744073709551615 ∧ read.logFormat = .json := by
  intro c fs text
  have hnodup : fs.Nodup := by decide
  have htext : text = ['\n'] ++ ['\x7b'] ++ ([' '] ++ stringChars "local_user" ++ ([' '] ++ [':'] ++ (['\t'] ++
      stringChars c.localUser ++ ([] ++ [','] ++ ([] ++ stringChars "max_mailbox_name_length" ++
      ([] ++ [':'] ++ ([] ++ (Value.ofNat c.maxNameLength).chars ++ (['\r'] ++ ['\x7d'] ++ [' ', ' '])))))))) := by
    decide +kernel
  have hspaced : Spaced (objectTokens c fs) text := by
    rw [htext]
    exact .cons (by decide) _ (.cons (by decide) _ (.cons (by decide) _ (.cons (by decide) _
      (.cons (by decide) _ (.cons (by decide) _ (.cons (by decide) _ (.cons (by decide) _
        (.cons (by decide) _ (.nil (by decide))))))))))
  obtain ⟨hrender, hsome⟩ := parse_spaced c
  obtain ⟨read, hread, hfields⟩ := hsome fs text hnodup hspaced
  have hgiven : ∀ f ∈ fs, read.get f = c.get f := fun f hf => (hfields f).trans (if_pos hf)
  have hformat : read.get .logFormat = standard.get .logFormat := (hfields .logFormat).trans (if_neg (by decide))
  exact ⟨hnodup, hspaced, hrender, read, hread, hgiven .localUser (by decide), hgiven .maxNameLength (by decide),
    hformat⟩

end MailServer.Config
