import MailServer.Json.Parser
import MailServer.Proofs.Keyed
import MailServer.Proofs.Literal

/-!
# Values that were written

The text of a value is read back as the value, in front of anything that can follow a value. The loops over
elements and members are followed for whatever reads one element back, so that they serve the values inside
a value and the triples of a batch alike.

* `ReadBack` — a reader takes a text back.
* `readElements_written`, `readMembers_written` — the loops.
* `Value.Plain` — the values that are read back: without doubles, with the members of each object in the
  order of their names, and nested no deeper than the reader allows.
* `readBack_value` — the round trip.
-/

namespace MailServer.Json

open Text (utf8Chars utf8Chars_append)

/-! ## Elements and members -/

theorem skipBlank_cons {b : UInt8} (h : isBlankByte b = false) (t : List UInt8) :
    skipBlank (b :: t) = b :: t := by
  rw [skipBlank, h]
  rfl

/-- The bytes begin with one that is no blank and closes no list. -/
def Begins (s : List UInt8) : Prop := ∃ b t, s = b :: t ∧ isBlankByte b = false ∧ b ≠ byte ']'

theorem Begins.length_pos {s : List UInt8} (h : Begins s) : 0 < s.length := by
  obtain ⟨b, t, rfl, -⟩ := h
  exact Nat.succ_pos _

/-- The reader takes the text of `v` back as `x`, where the text is ended by what stands behind it. -/
structure ReadBack {α : Type} (reader : Reader α) (v : Value) (x : α) : Prop where
  begins : Begins (utf8Chars v.chars)
  read : ∀ t, Stops t → reader (utf8Chars v.chars ++ t) = .ok (x, t)

theorem nextElement_of_begins {s : List UInt8} (h : Begins s) (t : List UInt8) :
    nextElement true (s ++ t) = .ok (some (s ++ t)) ∧
      nextElement false (byte ',' :: (s ++ t)) = .ok (some (s ++ t)) := by
  obtain ⟨b, u, rfl, hblank, hclose⟩ := h
  have hskip := skipBlank_cons hblank (u ++ t)
  have hcomma : skipBlank (byte ',' :: (b :: u ++ t)) = byte ',' :: (b :: u ++ t) := rfl
  constructor
  · rw [List.cons_append, nextElement, hskip]
    dsimp only
    rw [if_neg hclose, if_pos rfl]
  · rw [nextElement, hcomma, List.cons_append]
    dsimp only
    rw [if_neg (by decide), if_neg (by decide), if_pos rfl, hskip]
    dsimp only
    rw [if_neg hclose]

section Elements

variable {α : Type} {element : Reader α} {write : α → Value} {xs : List α} {t : List UInt8}

theorem stops_moreItems (vs : List Value) (t : List UInt8) :
    Stops (utf8Chars (Value.moreItemsChars vs) ++ t) := by
  cases vs with
  | nil =>
    rw [Value.moreItemsChars, utf8Chars_cons_ascii (by decide)]
    exact ⟨rfl, by decide, by decide, by decide⟩
  | cons v vs =>
    rw [Value.moreItemsChars, List.cons_append, utf8Chars_cons_ascii (by decide)]
    exact ⟨rfl, by decide, by decide, by decide⟩

/-- One element in front of those that are read back. -/
theorem readElements_cons {first : Bool} {s next : List UInt8} {v : Value} {x : α} {count : Nat}
    (hmove : nextElement first s = .ok (some (utf8Chars v.chars ++ next))) (hx : ReadBack element v x)
    (hnext : Stops next) (hrest : readElements element count false next = .ok (xs, t)) :
    readElements element (count + 1) first s = .ok (x :: xs, t) := by
  rw [readElements, hmove]
  dsimp only [bind, Except.bind]
  rw [hx.read next hnext]
  dsimp only
  rw [hrest]
  rfl

/-- The elements behind the first one. Induction on the elements. -/
theorem readElements_more (h : ∀ x ∈ xs, ReadBack element (write x) x) {count : Nat}
    (hcount : (utf8Chars (Value.moreItemsChars (xs.map write)) ++ t).length < count) :
    readElements element count false (utf8Chars (Value.moreItemsChars (xs.map write)) ++ t) =
      .ok (xs, t) := by
  induction xs generalizing count with
  | nil =>
    cases count with
    | zero => omega
    | succ count => rfl
  | cons x xs ih =>
    cases count with
    | zero => omega
    | succ count =>
      have hx := h x List.mem_cons_self
      have htext : utf8Chars (Value.moreItemsChars ((x :: xs).map write)) ++ t = byte ',' ::
          (utf8Chars (write x).chars ++ (utf8Chars (Value.moreItemsChars (xs.map write)) ++ t)) := by
        rw [List.map_cons, Value.moreItemsChars, List.cons_append, utf8Chars_cons_ascii (by decide),
          utf8Chars_append, List.cons_append, List.append_assoc]
      rw [htext] at hcount ⊢
      rw [List.length_cons, List.length_append] at hcount
      exact readElements_cons (nextElement_of_begins hx.begins _).2 hx (stops_moreItems _ t)
        (ih (fun x hx => h x (List.mem_cons_of_mem _ hx)) (by omega))

/-- **The elements of a list** are read back, whatever reads one of them back. -/
theorem readElements_written (h : ∀ x ∈ xs, ReadBack element (write x) x) {count : Nat}
    (hcount : (utf8Chars (Value.itemsChars (xs.map write)) ++ t).length < count) :
    readElements element count true (utf8Chars (Value.itemsChars (xs.map write)) ++ t) = .ok (xs, t) := by
  cases count with
  | zero => omega
  | succ count =>
    cases xs with
    | nil => rfl
    | cons x xs =>
      have hx := h x List.mem_cons_self
      rw [List.map_cons, Value.itemsChars, utf8Chars_append, List.append_assoc] at hcount ⊢
      have hpositive := hx.begins.length_pos
      rw [List.length_append] at hcount
      exact readElements_cons (nextElement_of_begins hx.begins _).1 hx (stops_moreItems _ t)
        (readElements_more (fun x hx => h x (List.mem_cons_of_mem _ hx)) (by omega))

end Elements

section Members

variable {value : Reader Value} {members : List (String × Value)} {t : List UInt8}

theorem stops_moreMembers (members : List (String × Value)) (t : List UInt8) :
    Stops (utf8Chars (Value.moreMembersChars members) ++ t) := by
  cases members with
  | nil =>
    rw [Value.moreMembersChars, utf8Chars_cons_ascii (by decide)]
    exact ⟨rfl, by decide, by decide, by decide⟩
  | cons m members =>
    rw [Value.moreMembersChars, List.append_assoc, List.cons_append, utf8Chars_cons_ascii (by decide)]
    exact ⟨rfl, by decide, by decide, by decide⟩

/-- The text of a member behind the opening quote of its name. -/
def memberBehindQuote (k : String) (v : Value) (next : List UInt8) : List UInt8 :=
  utf8Chars (k.toList.flatMap escapedChar) ++ byte '"' :: byte ':' :: (utf8Chars v.chars ++ next)

theorem utf8Chars_membersChars (k : String) (v : Value) (members : List (String × Value))
    (t : List UInt8) :
    utf8Chars (Value.membersChars ((k, v) :: members)) ++ t =
      byte '"' :: memberBehindQuote k v (utf8Chars (Value.moreMembersChars members) ++ t) := by
  rw [Value.membersChars, utf8Chars_append, utf8Chars_append, List.append_assoc, List.append_assoc,
    utf8Chars_stringChars, utf8Chars_cons_ascii (by decide), List.cons_append]
  rfl

theorem utf8Chars_moreMembersChars (k : String) (v : Value) (members : List (String × Value))
    (t : List UInt8) :
    utf8Chars (Value.moreMembersChars ((k, v) :: members)) ++ t = byte ',' :: byte '"' ::
      memberBehindQuote k v (utf8Chars (Value.moreMembersChars members) ++ t) := by
  have hcomma : Value.moreMembersChars ((k, v) :: members) = ',' :: Value.membersChars ((k, v) :: members) :=
    rfl
  rw [hcomma, utf8Chars_cons_ascii (by decide), List.cons_append, utf8Chars_membersChars]

/-- One member in front of those that are read back. -/
theorem readMembers_cons {first : Bool} {s next : List UInt8} {k : String} {v : Value} {count : Nat}
    (hmove : nextMember first s = .ok (some (memberBehindQuote k v next))) (hv : ReadBack value v v)
    (hnext : Stops next) (hrest : readMembers .refused value count false next = .ok (members, t)) :
    readMembers .refused value (count + 1) first s = .ok ((k, v) :: members, t) := by
  have hcolon : readColon (byte ':' :: (utf8Chars v.chars ++ next)) =
      .ok ((), utf8Chars v.chars ++ next) := rfl
  rw [readMembers, hmove]
  dsimp only [bind, Except.bind, memberBehindQuote]
  rw [readString_written]
  dsimp only
  rw [hcolon]
  dsimp only
  rw [hv.read next hnext]
  dsimp only
  rw [hrest]
  rfl

/-- The members behind the first one. Induction on the members. -/
theorem readMembers_more (h : ∀ m ∈ members, ReadBack value m.2 m.2) {count : Nat}
    (hcount : (utf8Chars (Value.moreMembersChars members) ++ t).length < count) :
    readMembers .refused value count false (utf8Chars (Value.moreMembersChars members) ++ t) =
      .ok (members, t) := by
  induction members generalizing count with
  | nil =>
    cases count with
    | zero => omega
    | succ count => rfl
  | cons m members ih =>
    obtain ⟨k, v⟩ := m
    cases count with
    | zero => omega
    | succ count =>
      rw [utf8Chars_moreMembersChars] at hcount ⊢
      simp only [memberBehindQuote, List.length_cons, List.length_append] at hcount
      exact readMembers_cons rfl (h (k, v) List.mem_cons_self) (stops_moreMembers members t)
        (ih (fun m hm => h m (List.mem_cons_of_mem _ hm)) (by rw [List.length_append]; omega))

/-- **The members of an object** are read back, in the order in which they were written. -/
theorem readMembers_written (h : ∀ m ∈ members, ReadBack value m.2 m.2) {count : Nat}
    (hcount : (utf8Chars (Value.membersChars members) ++ t).length < count) :
    readMembers .refused value count true (utf8Chars (Value.membersChars members) ++ t) =
      .ok (members, t) := by
  cases count with
  | zero => omega
  | succ count =>
    cases members with
    | nil => rfl
    | cons m members =>
      obtain ⟨k, v⟩ := m
      rw [utf8Chars_membersChars] at hcount ⊢
      simp only [memberBehindQuote, List.length_cons, List.length_append] at hcount
      exact readMembers_cons rfl (h (k, v) List.mem_cons_self) (stops_moreMembers members t)
        (readMembers_more (fun m hm => h m (List.mem_cons_of_mem _ hm))
          (by rw [List.length_append]; omega))

end Members

/-! ## Values -/

/-- A value that is read back where containers nest at most `depth` deep: it has no doubles, and the members
of each object are in the order of their names, each name once. -/
inductive Value.Plain : (depth : Nat) → Value → Prop
  | null (depth : Nat) : Plain depth .null
  | bool (depth : Nat) (b : Bool) : Plain depth (.bool b)
  | natural (depth : Nat) (n : UInt64) : Plain depth (.number (.natural n))
  | negative (depth : Nat) (n : Fin (Nat.pow 2 63)) : Plain depth (.number (.negative n))
  | string (depth : Nat) (s : String) : Plain depth (.string s)
  | array {depth : Nat} {items : List Value} (h : ∀ v ∈ items, Plain depth v) :
      Plain (depth + 1) (.array items)
  | object {depth : Nat} {members : List (String × Value)} (hsorted : Keyed.Sorted members)
      (h : ∀ m ∈ members, Plain depth m.2) : Plain (depth + 1) (.object members)

theorem ne_of_digit {b c : UInt8} (h : (digit? b).isSome = true) (hc : digit? c = none) : b ≠ c := by
  rintro rfl
  rw [hc] at h
  cases h

theorem isBlankByte_of_digit {b : UInt8} (h : (digit? b).isSome = true) : isBlankByte b = false := by
  unfold isBlankByte
  simp only [Bool.or_eq_false_iff, beq_eq_false_iff_ne]
  exact ⟨⟨⟨ne_of_digit h rfl, ne_of_digit h rfl⟩, ne_of_digit h rfl⟩, ne_of_digit h rfl⟩

/-- A digit begins a number. -/
theorem readValue_digit {b : UInt8} (h : (digit? b).isSome = true) (depth : Nat) (s : List UInt8) :
    readValue .refused depth (b :: s) =
      (readNumber false (b :: s)).map fun r => (.number r.1, r.2) := by
  have hne : ∀ c : UInt8, digit? c = none → b ≠ c := fun c => ne_of_digit h
  rw [readValue.eq_def]
  dsimp only
  rw [skipBlank_cons (isBlankByte_of_digit h)]
  dsimp only
  rw [if_neg (hne _ rfl), if_neg (hne _ rfl), if_neg (hne _ rfl), if_neg (hne _ rfl), if_pos h]
  cases readNumber false (b :: s) <;> rfl

/-- A string that is expected is read back. -/
theorem readText_written (expected s : String) (t : List UInt8) :
    readText .refused expected (utf8Chars (Value.string s).chars ++ t) = .ok (s, t) := by
  rw [Value.chars, utf8Chars_stringChars]
  exact readString_written s t

/-- The digits of a number begin with a digit. -/
theorem exists_toDigits (n : Nat) :
    ∃ b s, (digit? b).isSome = true ∧ utf8Chars (Nat.toDigits 10 n) = b :: s := by
  cases hdigits : Nat.toDigits 10 n with
  | nil => exact absurd hdigits Nat.toDigits_ne_nil
  | cons c cs =>
    have hc : c.isDigit = true :=
      Nat.isDigit_of_mem_toDigits (by decide) (by decide) (hdigits ▸ List.mem_cons_self)
    refine ⟨byte c, utf8Chars cs, ?_, utf8Chars_cons_ascii (toNat_lt_of_isDigit hc) cs⟩
    rw [digit?_byte hc]
    rfl

/-- The text of a list, in front of which a reader stands. -/
theorem readValue_list {depth : Nat} {items : List Value}
    (h : ∀ v ∈ items, ReadBack (readValue .refused depth) v v) (t : List UInt8) :
    readValue .refused (depth + 1) (utf8Chars (Value.array items).chars ++ t) = .ok (.array items, t) := by
  have hitems : ∀ v ∈ items, ReadBack (readValue .refused depth) (id v) v := h
  have hloop := readElements_written (t := t) hitems (Nat.lt_succ_self _)
  rw [List.map_id] at hloop
  rw [Value.chars, utf8Chars_cons_ascii (by decide), List.cons_append]
  show (readElements (readValue .refused depth) _ true _ >>= _) = _
  rw [hloop]
  rfl

/-- The text of an object whose members are in order. -/
theorem readValue_object {depth : Nat} {members : List (String × Value)} (hsorted : Keyed.Sorted members)
    (h : ∀ m ∈ members, ReadBack (readValue .refused depth) m.2 m.2) (t : List UInt8) :
    readValue .refused (depth + 1) (utf8Chars (Value.object members).chars ++ t) =
      .ok (.object members, t) := by
  have hloop := readMembers_written (t := t) h (Nat.lt_succ_self _)
  rw [Value.chars, utf8Chars_cons_ascii (by decide), List.cons_append]
  show (readMembers .refused (readValue .refused depth) _ true _ >>= _) = _
  rw [hloop]
  show Except.ok (Value.ofMembers members, t) = _
  rw [Value.ofMembers, Keyed.ofList_of_sorted hsorted]

/-- **Values.** A plain value is read back from its text. Induction on the value, along which the depth that
the reader allows goes down. -/
theorem readBack_value {depth : Nat} {v : Value} (h : Value.Plain depth v) :
    ReadBack (readValue .refused depth) v v := by
  induction h with
  | null depth => exact ⟨⟨_, _, rfl, rfl, by decide⟩, fun t _ => by rw [readValue.eq_def]; rfl⟩
  | bool depth b =>
    cases b with
    | true => exact ⟨⟨_, _, rfl, rfl, by decide⟩, fun t _ => by rw [readValue.eq_def]; rfl⟩
    | false => exact ⟨⟨_, _, rfl, rfl, by decide⟩, fun t _ => by rw [readValue.eq_def]; rfl⟩
  | natural depth n =>
    obtain ⟨b, s, hdigit, htext⟩ := exists_toDigits n.toNat
    have hchars : (Value.number (.natural n)).chars = Nat.toDigits 10 n.toNat := rfl
    refine ⟨?_, fun t ht => ?_⟩
    · exact ⟨b, s, hchars ▸ htext, isBlankByte_of_digit hdigit, ne_of_digit hdigit rfl⟩
    · have hnumber := readNumber_written n.toNat_lt false ht
      rw [htext, List.cons_append] at hnumber
      rw [hchars, htext, List.cons_append, readValue_digit hdigit, hnumber]
      simp [integerNumber, Except.map]
  | negative depth n =>
    have hchars : (Value.number (.negative n)).chars = '-' :: Nat.toDigits 10 (n.val + 1) := rfl
    have htext : ∀ t, utf8Chars (Value.number (.negative n)).chars ++ t =
        byte '-' :: (utf8Chars (Nat.toDigits 10 (n.val + 1)) ++ t) := fun t => by
      rw [hchars, utf8Chars_cons_ascii (by decide), List.cons_append]
    refine ⟨⟨byte '-', _, by rw [hchars, utf8Chars_cons_ascii (by decide)], rfl, by decide⟩,
      fun t ht => ?_⟩
    have hsmall : n.val + 1 ≤ Nat.pow 2 63 := n.isLt
    have hfits : n.val + 1 < Nat.pow 2 64 := Nat.lt_of_le_of_lt hsmall (by decide)
    have hnumber := readNumber_written hfits true ht
    have hinteger : integerNumber true (n.val + 1) = .negative n := by
      unfold integerNumber
      rw [if_pos rfl, dif_pos ⟨Nat.succ_pos _, hsmall⟩]
      rfl
    rw [htext, readValue.eq_def]
    show (readNumber true _ >>= _) = _
    rw [hnumber, hinteger]
    rfl
  | string depth s =>
    have htext : ∀ t, utf8Chars (Value.string s).chars ++ t =
        byte '"' :: (utf8Chars (s.toList.flatMap escapedChar) ++ byte '"' :: t) :=
      utf8Chars_stringChars s
    refine ⟨?_, fun t _ => ?_⟩
    · have hbare := htext []
      rw [List.append_nil] at hbare
      exact ⟨byte '"', _, hbare, rfl, by decide⟩
    · rw [htext, readValue.eq_def]
      show (readString .refused _ >>= _) = _
      rw [readString_written]
      rfl
  | array h ih =>
    exact ⟨⟨_, _, by rw [Value.chars, utf8Chars_cons_ascii (by decide)], rfl, by decide⟩,
      fun t _ => readValue_list ih t⟩
  | object hsorted h ih =>
    exact ⟨⟨_, _, by rw [Value.chars, utf8Chars_cons_ascii (by decide)], rfl, by decide⟩,
      fun t _ => readValue_object hsorted ih t⟩

end MailServer.Json
