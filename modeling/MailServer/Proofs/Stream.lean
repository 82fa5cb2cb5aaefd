import Mathlib.Data.List.Basic
import MailServer.Imap.Connection
import MailServer.Proofs.Path
import MailServer.Proofs.Utf8

/-!
# The lines of a session are told apart

The answers of a session are lines one after the other. A line ends at its line feed, and what is in it can be
read off from the left: a word up to the first space, a code up to its bracket, and the rest. So the bytes that
are written tell the responses, even while they still come in.

* `Response.Sendable` — the responses that are a line of their own.
* `Code.render_append_inj`, `Response.Sendable.render_inj` — a code, and a whole line.
* `stream`, `stream_prefix_iff` — line after line.
* `Outlet.writeAll_wire` — what is written on an output, whether or not all of it.
* `written_unambiguous` — two sequences of responses and the bytes written of them.
-/

namespace MailServer.Imap

open Text (append_cons_inj utf8 utf8Chars_prefix_iff)

/-! ## Parts of a line -/

theorem isDigit_of_mem_decimal {n : UInt32} {c : Char} (h : c ∈ (decimal n).toList) : c.isDigit = true := by
  rw [decimal, Nat.toString_eq_ofList_toDigits, String.toList_ofList] at h
  exact Nat.isDigit_of_mem_toDigits (by decide) (by decide) h

theorem not_mem_decimal {d : Char} (hdigit : d.isDigit = false) (n : UInt32) : d ∉ (decimal n).toList :=
  fun h => Bool.false_ne_true (hdigit.symm.trans (isDigit_of_mem_decimal h))

theorem decimal_injective : Function.Injective decimal := fun _ _ h =>
  UInt32.toNat_inj.mp (Text.toString_injective h)

theorem Status.name_injective : Function.Injective Status.name := by
  intro s s' h
  cases s <;> cases s' <;> first | rfl | exact absurd h (by decide)

theorem Reason.text_injective : Function.Injective Reason.text := by
  intro r r' h
  cases r <;> cases r' <;> first | rfl | exact absurd h (by decide)

/-! ### Codes -/

namespace Code

/-- What a code says between its brackets. -/
def inner : Code → String
  | readWrite => "READ-WRITE"
  | uidValidity value => "UIDVALIDITY " ++ decimal value
  | uidNext value => "UIDNEXT " ++ decimal value

theorem toList_render (c : Code) : c.render.toList = '[' :: (c.inner.toList ++ [']']) := by
  cases c <;> simp [render, inner]

/-- Between its brackets a code has digits, capital letters, a blank and a hyphen. -/
theorem not_mem_inner {d : Char} (hdigit : d.isDigit = false)
    (hletter : d ∉ "READ-WRITE UIDVALIDITY UIDNEXT".toList) (c : Code) : d ∉ c.inner.toList := by
  cases c <;> simp_all [inner, not_mem_decimal]

theorem inner_injective : Function.Injective inner := by
  intro c c' h
  have hchars := congrArg String.toList h
  cases c <;> cases c' <;> simp [inner, String.toList_inj, decimal_injective.eq_iff] at hchars ⊢ <;>
    exact hchars

/-- A code has a bracket first. -/
theorem render_append_ne {s : String} (h : s.toList.head? ≠ some '[') (c : Code) (rest : String) :
    c.render ++ rest ≠ s := by
  rintro rfl
  simp [toList_render] at h

/-- A code ends at its bracket, and what follows is free. -/
theorem render_append_inj {c c' : Code} {rest rest' : List Char}
    (h : c.render.toList ++ rest = c'.render.toList ++ rest') : c = c' ∧ rest = rest' := by
  have hclosing (c : Code) : ']' ∉ c.inner.toList := c.not_mem_inner (by decide) (by decide)
  simp only [toList_render, List.cons_append, List.append_assoc, List.cons.injEq, true_and,
    List.nil_append] at h
  obtain ⟨hinner, hrest⟩ := append_cons_inj (hclosing c) (hclosing c') h
  exact ⟨inner_injective (String.toList_inj.mp hinner), hrest⟩

end Code

/-! ## Lines -/

theorem Verb.not_mem_name (verb : Verb) : ' ' ∉ verb.name.toList := by cases verb <;> decide

namespace Tagged

/-- A tagged line that a client can read: its tag is one word and not the star of the other lines. -/
structure Sendable (line : Tagged) : Prop where
  oneWord : ' ' ∉ line.tag.toList
  oneLine : '\n' ∉ line.tag.toList
  notStar : line.tag ≠ "*"
  isCommand : ∃ verb : Verb, line.command = verb.name

/-- The command of a tagged line, and why it ended so. -/
def outcome (line : Tagged) : String := line.command ++ " " ++ line.reason.text

/-- What a tagged line says after its status. -/
def details (line : Tagged) : String :=
  match line.code with
  | some code => code.render ++ (" " ++ line.outcome)
  | none => line.outcome

variable {line line' : Tagged}

theorem Sendable.head_outcome (h : line.Sendable) : line.outcome.toList.head? ≠ some '[' := by
  obtain ⟨verb, hverb⟩ := h.isCommand
  rw [outcome, hverb]
  cases verb <;> simp [Verb.name]

theorem Sendable.outcome_inj (h : line.Sendable) (h' : line'.Sendable) (heq : line.outcome = line'.outcome) :
    line.command = line'.command ∧ line.reason = line'.reason := by
  obtain ⟨verb, hverb⟩ := h.isCommand
  obtain ⟨verb', hverb'⟩ := h'.isCommand
  have hchars : verb.name.toList ++ ' ' :: line.reason.text.toList =
      verb'.name.toList ++ ' ' :: line'.reason.text.toList := by
    simpa [outcome, hverb, hverb'] using congrArg String.toList heq
  obtain ⟨hname, htext⟩ := append_cons_inj verb.not_mem_name verb'.not_mem_name hchars
  rw [hverb, hverb']
  exact ⟨String.toList_inj.mp hname, Reason.text_injective (String.toList_inj.mp htext)⟩

/-- A code is told from a command by its bracket. -/
theorem Sendable.details_inj (h : line.Sendable) (h' : line'.Sendable) (heq : line.details = line'.details) :
    line.code = line'.code ∧ line.outcome = line'.outcome := by
  obtain ⟨tag, status, code, command, reason⟩ := line
  obtain ⟨tag', status', code', command', reason'⟩ := line'
  cases code with
  | none =>
    cases code' with
    | none => exact ⟨rfl, heq⟩
    | some code' => exact absurd heq.symm (code'.render_append_ne h.head_outcome _)
  | some code =>
    cases code' with
    | none => exact absurd heq (code.render_append_ne h'.head_outcome _)
    | some code' =>
      have hchars := congrArg String.toList heq
      simp only [details, String.toList_append] at hchars
      obtain ⟨rfl, hrest⟩ := Code.render_append_inj hchars
      exact ⟨rfl, String.toList_inj.mp (List.append_cancel_left hrest)⟩

end Tagged

namespace Response

/-- The responses that are a line of their own: their texts do not break it. -/
def Sendable : Response → Prop
  | notice _ text => '\n' ∉ text.toList
  | tagged line => line.Sendable
  | _ => True

/-- The first word of a line. -/
def label : Response → String
  | tagged line => line.tag
  | _ => "*"

/-- The second word of a line. -/
def word : Response → String
  | messages count => decimal count
  | recent count => decimal count
  | flags => "FLAGS"
  | notice _ _ => "OK"
  | tagged line => line.status.name

/-- A line after its second word. -/
def details : Response → String
  | messages _ => "EXISTS"
  | recent _ => "RECENT"
  | flags => systemFlags
  | notice code text => code.render ++ " " ++ text
  | tagged line => line.details

theorem toList_render (r : Response) :
    r.render.toList = r.label.toList ++ ' ' :: (r.word.toList ++ ' ' :: r.details.toList) := by
  cases r with
  | tagged line =>
    cases hcode : line.code <;>
      simp [render, label, word, details, Tagged.render, Tagged.details, Tagged.outcome, Tagged.codePart, hcode]
  | _ => simp [render, label, word, details]

/-- The second word has digits and capital letters. -/
theorem not_mem_word {d : Char} (hdigit : d.isDigit = false) (hletter : d ∉ "FLAGSOKNOBAD".toList)
    (r : Response) : d ∉ r.word.toList := by
  cases r with
  | messages count => exact not_mem_decimal hdigit count
  | recent count => exact not_mem_decimal hdigit count
  | tagged line => cases hstatus : line.status <;> simp_all [word, Status.name]
  | _ => simp_all [word]

theorem Sendable.label_not_mem {r : Response} (h : r.Sendable) : ' ' ∉ r.label.toList := by
  cases r with
  | tagged line => exact h.oneWord
  | _ => simp [label]

/-- The three parts of a line tell its response. A tag is not the star, and the other lines differ in the first
character behind their second word. -/
theorem Sendable.parts_inj {r r' : Response} (h : r.Sendable) (h' : r'.Sendable)
    (hlabel : r.label = r'.label) (hword : r.word = r'.word) (hdetails : r.details = r'.details) : r = r' := by
  have hhead := congrArg (·.toList.head?) hdetails
  cases r with
  | messages count =>
    cases r' with
    | messages count' => rw [decimal_injective hword]
    | tagged line' => exact absurd hlabel.symm h'.notStar
    | _ => simp [details, systemFlags, Code.toList_render] at hhead
  | recent count =>
    cases r' with
    | recent count' => rw [decimal_injective hword]
    | tagged line' => exact absurd hlabel.symm h'.notStar
    | _ => simp [details, systemFlags, Code.toList_render] at hhead
  | flags =>
    cases r' with
    | flags => rfl
    | tagged line' => exact absurd hlabel.symm h'.notStar
    | _ => simp [details, systemFlags, Code.toList_render] at hhead
  | notice code text =>
    cases r' with
    | notice code' text' =>
      have hchars : code.render.toList ++ ' ' :: text.toList = code'.render.toList ++ ' ' :: text'.toList := by
        simpa [details] using congrArg String.toList hdetails
      obtain ⟨rfl, hrest⟩ := Code.render_append_inj hchars
      rw [String.toList_inj.mp (List.tail_eq_of_cons_eq hrest)]
    | tagged line' => exact absurd hlabel.symm h'.notStar
    | _ => simp [details, systemFlags, Code.toList_render] at hhead
  | tagged line =>
    cases r' with
    | tagged line' =>
      obtain ⟨hcode, houtcome⟩ := Tagged.Sendable.details_inj h h' hdetails
      obtain ⟨hcommand, hreason⟩ := Tagged.Sendable.outcome_inj h h' houtcome
      have hstatus := Status.name_injective hword
      have htag : line.tag = line'.tag := hlabel
      cases line
      cases line'
      simp_all
    | _ => exact absurd hlabel h.notStar

/-- A line tells its response. -/
theorem Sendable.render_inj {r r' : Response} (h : r.Sendable) (h' : r'.Sendable)
    (heq : r.render = r'.render) : r = r' := by
  have hblank (r : Response) : ' ' ∉ r.word.toList := r.not_mem_word (by decide) (by decide)
  have hchars := congrArg String.toList heq
  rw [toList_render, toList_render] at hchars
  obtain ⟨hlabel, hbehind⟩ := append_cons_inj h.label_not_mem h'.label_not_mem hchars
  obtain ⟨hword, hdetails⟩ := append_cons_inj (hblank r) (hblank r') hbehind
  exact h.parts_inj h' (String.toList_inj.mp hlabel) (String.toList_inj.mp hword) (String.toList_inj.mp hdetails)

/-- A response is one line. -/
theorem Sendable.not_mem_render {r : Response} (h : r.Sendable) : '\n' ∉ r.render.toList := by
  have hcode (code : Code) : '\n' ∉ code.render.toList := by
    simp [Code.toList_render, code.not_mem_inner (d := '\n') (by decide) (by decide)]
  have hword : '\n' ∉ r.word.toList := r.not_mem_word (by decide) (by decide)
  rw [toList_render]
  cases r with
  | notice code text => simp_all [Sendable, label, details]
  | tagged line =>
    obtain ⟨verb, hverb⟩ := h.isCommand
    have houtcome : '\n' ∉ line.outcome.toList := by
      rw [Tagged.outcome, hverb]
      cases verb <;> cases line.reason <;> simp [Verb.name, Reason.text]
    have hdetails : '\n' ∉ line.details.toList := by
      unfold Tagged.details
      cases line.code <;> simp [hcode, houtcome]
    have htag : '\n' ∉ line.tag.toList := h.oneLine
    simp [label, details, hword, hdetails, htag]
  | _ => simp [label, details, hword, systemFlags]

end Response

/-! ## Line after line -/

/-- The characters of an answer. -/
def stream (rs : List Response) : List Char := rs.flatMap (·.wire.toList)

theorem stream_cons (r : Response) (rs : List Response) :
    stream (r :: rs) = (r.render.toList ++ ['\r']) ++ '\n' :: stream rs := by
  simp [stream, Response.wire]

/-- The characters of an answer begin like those of another one where the answer does. Induction on the
answer: its first line ends at the first line feed. -/
theorem stream_prefix_iff {rs rs' : List Response} (h : ∀ r ∈ rs, r.Sendable) (h' : ∀ r ∈ rs', r.Sendable) :
    stream rs <+: stream rs' ↔ rs <+: rs' := by
  constructor
  · intro hprefix
    induction rs generalizing rs' with
    | nil => exact List.nil_prefix
    | cons r rs ih =>
      obtain ⟨t, ht⟩ := hprefix
      rw [stream_cons, List.append_assoc, List.cons_append] at ht
      cases rs' with
      | nil => simp [stream] at ht
      | cons r' rs' =>
        rw [stream_cons] at ht
        obtain ⟨hr, hrs⟩ := List.forall_mem_cons.mp h
        obtain ⟨hr', hrs'⟩ := List.forall_mem_cons.mp h'
        have hline {r : Response} (h : r.Sendable) : '\n' ∉ r.render.toList ++ ['\r'] := by simp [h.not_mem_render]
        obtain ⟨hfirst, hrest⟩ := append_cons_inj (hline hr) (hline hr') ht
        obtain rfl := hr.render_inj hr' (String.toList_inj.mp (List.append_cancel_right hfirst))
        exact (List.prefix_cons_inj r).mpr (ih hrs hrs' ⟨t, hrest⟩)
  · rintro ⟨t, rfl⟩
    exact ⟨stream t, List.flatMap_append.symm⟩

/-! ## What is written -/

namespace Outlet

/-- The responses that an output takes. -/
def sent (o : Outlet) (rs : List Response) : List Response :=
  match o.writesLeft with
  | none => rs
  | some n => rs.take n

theorem sent_prefix (o : Outlet) (rs : List Response) : o.sent rs <+: rs := by
  unfold sent
  cases o.writesLeft with
  | none => exact List.prefix_rfl
  | some n => exact List.take_prefix n rs

theorem sent_cons {o o' : Outlet} (h : o.write = .ok o') (r : Response) (rs : List Response) :
    o.sent (r :: rs) = r :: o'.sent rs := by
  unfold write at h
  unfold sent
  split at h <;> cases h <;> simp_all

theorem sent_of_error {o : Outlet} {fault : WriteFault} (h : o.write = .error fault) (rs : List Response) :
    o.sent rs = [] := by
  unfold write at h
  unfold sent
  split at h <;> cases h
  simp_all

/-- The text that is written is that of the responses that the output takes. -/
theorem writeAll_wire (o : Outlet) (rs : List Response) :
    (o.writeAll (rs.map Response.wire)).1.toList = stream (o.sent rs) := by
  induction rs generalizing o with
  | nil => cases h : o.writesLeft <;> simp [writeAll, sent, stream, h]
  | cons r rs ih =>
    rw [List.map_cons, writeAll]
    cases hwrite : o.write with
    | error fault => simp [sent_of_error hwrite, stream]
    | ok next =>
      rw [sent_cons hwrite, stream, List.flatMap_cons, ← stream, ← ih next]
      exact String.toList_append

/-- An output on which nothing went wrong has taken all responses. -/
theorem sent_eq_of_ok (o : Outlet) {rs : List Response} (h : (o.writeAll (rs.map Response.wire)).2.2 = .ok ()) :
    o.sent rs = rs := by
  induction rs generalizing o with
  | nil => exact List.prefix_nil.mp (o.sent_prefix [])
  | cons r rs ih =>
    rw [List.map_cons, writeAll] at h
    cases hwrite : o.write with
    | error fault => simp [hwrite] at h
    | ok next =>
      rw [sent_cons hwrite, ih next (by simpa [hwrite] using h)]

end Outlet

/-- The bytes that are written of an answer. -/
def Outlet.bytes (o : Outlet) (rs : List Response) : List UInt8 := utf8 (o.writeAll (rs.map Response.wire)).1

theorem Outlet.bytes_prefix_iff {rs rs' : List Response} (h : ∀ r ∈ rs, r.Sendable)
    (h' : ∀ r ∈ rs', r.Sendable) (o o' : Outlet) : o.bytes rs <+: o'.bytes rs' ↔ o.sent rs <+: o'.sent rs' := by
  rw [bytes, bytes, utf8, utf8, utf8Chars_prefix_iff, writeAll_wire, writeAll_wire]
  exact stream_prefix_iff (fun r hr => h r ((o.sent_prefix rs).mem hr)) (fun r hr => h' r ((o'.sent_prefix rs').mem hr))

/-- **The bytes tell the responses**, on any two outputs. What is written of one sequence begins what is written of
another one just when the responses that were taken begin those that were taken of the other, so the same bytes are
the same responses; and where nothing went wrong these are the whole sequences. A tag may be empty here, and a carriage
return may stand in a tag or a text. -/
theorem written_unambiguous {rs rs' : List Response} (h : ∀ r ∈ rs, r.Sendable) (h' : ∀ r ∈ rs', r.Sendable)
    (o o' : Outlet) :
    (o.bytes rs <+: o'.bytes rs' ↔ o.sent rs <+: o'.sent rs') ∧
      (o.bytes rs = o'.bytes rs' ↔ o.sent rs = o'.sent rs') ∧
      ((o.writeAll (rs.map Response.wire)).2.2 = .ok () → (o'.writeAll (rs'.map Response.wire)).2.2 = .ok () →
        (o.bytes rs = o'.bytes rs' ↔ rs = rs')) := by
  have hbegins := Outlet.bytes_prefix_iff h h' o o'
  have hsame : o.bytes rs = o'.bytes rs' ↔ o.sent rs = o'.sent rs' := by
    constructor
    · intro hbytes
      have hback := (Outlet.bytes_prefix_iff h' h o' o).mp (hbytes ▸ List.prefix_rfl)
      exact (hbegins.mp (hbytes ▸ List.prefix_rfl)).eq_of_length_le hback.length_le
    · intro hsent
      rw [Outlet.bytes, Outlet.bytes, utf8, utf8, Outlet.writeAll_wire, Outlet.writeAll_wire, hsent]
  refine ⟨hbegins, hsame, fun hok hok' => ?_⟩
  rw [hsame, o.sent_eq_of_ok hok, o'.sent_eq_of_ok hok']

/-- Two answers to a `SELECT` that differ in the number of messages begin with the same line, and can be told apart
once all is written. -/
theorem written_unambiguous_selected :
    let answer (count : UInt32) : List Response :=
      openingLines ⟨count, 7, 3⟩ ++ [.tagged (.completed "a1" "SELECT" (some .readWrite))]
    let short : Outlet := ⟨some 1, .stalled, none⟩
    (∀ count, ∀ r ∈ answer count, r.Sendable) ∧
      short.bytes (answer 12) <+: Outlet.unlimited.bytes (answer 5) ∧
      Outlet.unlimited.bytes (answer 12) ≠ Outlet.unlimited.bytes (answer 5) := by
  intro answer short
  have hanswer (count : UInt32) : ∀ r ∈ answer count, r.Sendable := by
    have hline : (Tagged.completed "a1" "SELECT" (some .readWrite)).Sendable :=
      ⟨by decide, by decide, by decide, .select, rfl⟩
    simp [answer, openingLines, Response.Sendable, hline]
  refine ⟨hanswer, ?_, fun hsame => ?_⟩
  · exact (written_unambiguous (hanswer 12) (hanswer 5) short .unlimited).1.mpr ⟨_, rfl⟩
  · have hanswers : answer 12 = answer 5 :=
      ((written_unambiguous (hanswer 12) (hanswer 5) .unlimited .unlimited).2.2 rfl rfl).mp hsame
    simp [answer, openingLines] at hanswers

end MailServer.Imap
