import MailServer.Jmap.Dispatch
import MailServer.Proofs.Body
import MailServer.Proofs.Calls
import MailServer.Proofs.Run
import MailServer.Proofs.Written

/-!
# Results are read back

A batch and the list of its results have one form, so that results can be read as a batch. What is written
has no raw control byte, so the pass that escapes these changes nothing; a triple is read back like a list
of three values, and the two lists of a batch take two of the containers that may nest. The methods answer
with objects that are nested three deep at most, whatever the calls that they make are answered with.

* `Batch.parse_written` — a batch that was written is read back.
* `Result.Readable` — the results that are read back, and `parse_renderAll` as what.
* `Shows` — the text of some results, with what it is read as.
* `readable_dispatch` — the results of a batch are readable.
-/

namespace MailServer.Json

open Text (utf8Chars utf8EncodeChar_cases)

/-! ## No raw control characters -/

/-- No character is a control character. -/
def Printable (cs : List Char) : Prop := ∀ c ∈ cs, 0x20 ≤ c.toNat

instance (cs : List Char) : Decidable (Printable cs) :=
  List.decidableBAll (fun c : Char => 0x20 ≤ c.toNat) cs

theorem Printable.append {cs ds : List Char} (hc : Printable cs) (hd : Printable ds) :
    Printable (cs ++ ds) := fun c h => (List.mem_append.mp h).elim (hc c) (hd c)

theorem Printable.cons {c : Char} {cs : List Char} (hc : 0x20 ≤ c.toNat) (h : Printable cs) :
    Printable (c :: cs) := List.forall_mem_cons.mpr ⟨hc, h⟩

theorem printable_escapedChar (c : Char) : Printable (escapedChar c) := by
  have hcontrol : ∀ n : Fin 32,
      Printable ['\\', 'u', '0', '0', hexDigit (n.val / 16), hexDigit (n.val % 16)] := by decide
  unfold escapedChar
  split_ifs with _ _ _ _ _ _ _ hsmall
  iterate 7 decide
  · exact hcontrol ⟨c.toNat, hsmall⟩
  · exact List.forall_mem_singleton.mpr (not_lt.mp hsmall)

theorem printable_stringChars (s : String) : Printable (stringChars s) := by
  have hcontents : Printable (s.toList.flatMap escapedChar) := by
    intro c hc
    obtain ⟨d, -, hd⟩ := List.mem_flatMap.mp hc
    exact printable_escapedChar d c hd
  exact (hcontents.cons (by decide)).append (by decide)

theorem printable_toDigits (n : Nat) : Printable (Nat.toDigits 10 n) := by
  intro c hc
  have := bounds_of_isDigit (Nat.isDigit_of_mem_toDigits (by decide) (by decide) hc)
  omega

section Containers

variable {items : List Value} {members : List (String × Value)}

theorem printable_moreItems (h : ∀ v ∈ items, Printable v.chars) :
    Printable (Value.moreItemsChars items) := by
  induction items with
  | nil => decide
  | cons v items ih =>
    have hv := h v List.mem_cons_self
    exact (hv.append (ih fun v hv => h v (List.mem_cons_of_mem _ hv))).cons (by decide)

theorem printable_items (h : ∀ v ∈ items, Printable v.chars) : Printable (Value.itemsChars items) := by
  cases items with
  | nil => decide
  | cons v items =>
    exact (h v List.mem_cons_self).append (printable_moreItems fun v hv => h v (List.mem_cons_of_mem _ hv))

theorem printable_moreMembers (h : ∀ m ∈ members, Printable m.2.chars) :
    Printable (Value.moreMembersChars members) := by
  induction members with
  | nil => decide
  | cons m members ih =>
    have hm := (h m List.mem_cons_self).cons (c := ':') (by decide)
    have hname := (printable_stringChars m.1).cons (c := ',') (by decide)
    exact (hname.append hm).append (ih fun m hm => h m (List.mem_cons_of_mem _ hm))

theorem printable_members (h : ∀ m ∈ members, Printable m.2.chars) :
    Printable (Value.membersChars members) := by
  cases members with
  | nil => decide
  | cons m members =>
    have hm := (h m List.mem_cons_self).cons (c := ':') (by decide)
    exact ((printable_stringChars m.1).append hm).append
      (printable_moreMembers fun m hm => h m (List.mem_cons_of_mem _ hm))

end Containers

/-- The text of a plain value has no control characters. Induction on the value. -/
theorem Value.Plain.printable {depth : Nat} {v : Value} (h : Value.Plain depth v) : Printable v.chars := by
  induction h with
  | null => decide
  | bool depth b => cases b <;> decide
  | natural depth n => exact printable_toDigits n.toNat
  | negative depth n => exact (printable_toDigits (n.val + 1)).cons (by decide)
  | string depth s => exact printable_stringChars s
  | array h ih => exact (printable_items ih).cons (by decide)
  | object hsorted h ih => exact (printable_members ih).cons (by decide)

theorem Printable.bytes {cs : List Char} (h : Printable cs) : ∀ b ∈ utf8Chars cs, 0x20 ≤ b := by
  intro b hb
  obtain ⟨c, hc, hb⟩ := List.mem_flatMap.mp hb
  obtain ⟨hsmall, hbytes⟩ | ⟨-, hbytes⟩ := utf8EncodeChar_cases c
  · rw [hbytes, List.mem_singleton] at hb
    have hbyte : b.toNat = c.toNat := hb ▸ toNat_byte hsmall
    rw [UInt8.le_iff_toNat_le, hbyte]
    exact h c hc
  · exact UInt8.le_trans (by decide) (hbytes b hb)

/-! ## Objects -/

/-- An object of members in any order is plain where the members are. -/
theorem plain_ofMembers {depth : Nat} {members : List (String × Value)}
    (h : ∀ m ∈ members, Value.Plain depth m.2) : Value.Plain (depth + 1) (.ofMembers members) :=
  .object (Keyed.sorted_ofList members) fun m hm => h m (Keyed.mem_of_mem_ofList hm)

theorem plain_ofText? (depth : Nat) (s : Option String) : Value.Plain depth (.ofText? s) := by
  cases s with
  | none => exact .null depth
  | some s => exact .string depth s

end MailServer.Json

namespace MailServer.Jmap

open Json (ReadBack Stops Value byte maxDepth nextElement nextElement_of_begins readBack_value
  readElements_written readText_written)
open Text (utf8Chars utf8Chars_append utf8Chars_nil)

/-! ## Reading batches that were written -/

/-- Where nothing is raw, nothing is escaped. -/
theorem escapeFrom_of_printable {s : List UInt8} (h : ∀ b ∈ s, 0x20 ≤ b) (q : Quoting) :
    escapeFrom q s = s := by
  induction s generalizing q with
  | nil => rfl
  | cons b s ih =>
    have hb : ¬ b < 0x20 := UInt8.not_lt.mpr (h b List.mem_cons_self)
    rw [escapeFrom, if_neg fun hraw => hb hraw.2, ih fun b hb => h b (List.mem_cons_of_mem _ hb)]

theorem stops_comma (t : List UInt8) : Stops (byte ',' :: t) := ⟨rfl, by decide, by decide, by decide⟩

/-- **A triple** is read back. -/
theorem readBack_invocation {depth : Nat} {i : Invocation} (h : Value.Plain depth i.arguments) :
    ReadBack (readInvocation .refused depth) i.toValue i := by
  have hmethod := readBack_value (.string depth i.method)
  have harguments := readBack_value h
  have hcallId := readBack_value (.string depth i.callId)
  -- the text of the triple, part by part
  have htext : ∀ t, utf8Chars i.toValue.chars ++ t = byte '[' :: (utf8Chars (Value.string i.method).chars ++
      byte ',' :: (utf8Chars i.arguments.chars ++
        byte ',' :: (utf8Chars (Value.string i.callId).chars ++ byte ']' :: t))) := by
    intro t
    simp only [Invocation.toValue, Value.chars, Value.itemsChars, Value.moreItemsChars, utf8Chars_append,
      Json.utf8Chars_cons_ascii (show ('[').toNat < 0x80 by decide),
      Json.utf8Chars_cons_ascii (show (',').toNat < 0x80 by decide),
      Json.utf8Chars_cons_ascii (show (']').toNat < 0x80 by decide), utf8Chars_nil, List.cons_append,
      List.append_assoc, List.nil_append]
  refine ⟨⟨byte '[', _, by simpa using htext [], rfl, by decide⟩, fun t _ => ?_⟩
  rw [htext]
  show (nextElement true _ >>= _) = _
  rw [(nextElement_of_begins hmethod.begins _).1]
  dsimp only [bind, Except.bind]
  rw [readText_written]
  dsimp only
  rw [(nextElement_of_begins harguments.begins _).2]
  dsimp only
  rw [harguments.read _ (stops_comma _)]
  dsimp only
  rw [(nextElement_of_begins hcallId.begins _).2]
  dsimp only
  rw [readText_written]
  rfl

/-- A list of triples is read back, where what is left under the two lists is enough for the arguments. -/
theorem readBatch_written {batch : List Invocation} (h : ∀ i ∈ batch, Value.Plain 125 i.arguments) :
    readBatch .refused (Text.utf8 (Value.array (batch.map Invocation.toValue)).render) = .ok (batch, []) := by
  have htriples : ∀ i ∈ batch, ReadBack (readInvocation .refused (maxDepth - 2)) i.toValue i :=
    fun i hi => readBack_invocation (h i hi)
  have hloop := readElements_written (t := []) htriples (Nat.lt_succ_self _)
  rw [List.append_nil] at hloop
  rw [Text.utf8, Value.render, String.toList_ofList, Value.chars, Json.utf8Chars_cons_ascii (by decide)]
  exact hloop

/-- **A batch that was written is read back**, where its arguments are plain objects. -/
theorem Batch.parse_written {batch : List Invocation} (hobject : ∀ i ∈ batch, i.arguments.isObject = true)
    (hplain : ∀ i ∈ batch, Value.Plain 125 i.arguments) :
    Batch.parse (Text.utf8 (Value.array (batch.map Invocation.toValue)).render) = .ok batch := by
  have htriples : ∀ v ∈ batch.map Invocation.toValue, Json.Printable v.chars := by
    intro v hv
    obtain ⟨i, hi, rfl⟩ := List.mem_map.mp hv
    refine (Json.printable_items ?_).cons (by decide)
    simp only [List.forall_mem_cons]
    exact ⟨Json.printable_stringChars _, (hplain i hi).printable, Json.printable_stringChars _, nofun⟩
  have hwritten : Json.Printable (Value.array (batch.map Invocation.toValue)).chars :=
    (Json.printable_items htriples).cons (by decide)
  have hread : Json.readAll (readBatch .refused)
      (Text.utf8 (Value.array (batch.map Invocation.toValue)).render) = .ok batch := by
    rw [Json.readAll, readBatch_written hplain]
    rfl
  have hcheck : batch.find? (fun i => !i.arguments.isObject) = none := by
    rw [List.find?_eq_none]
    intro i hi
    rw [hobject i hi]
    decide
  unfold Batch.parse Batch.parseAs escapeControls
  rw [escapeFrom_of_printable (by simpa [Text.utf8, Value.render] using hwritten.bytes), hread]
  dsimp only
  rw [Batch.checkArguments, hcheck]

/-! ## Results -/

/-- A result that can be read as an invocation: its value is an object without doubles, and nested no deeper
than is left under the two lists of a batch. -/
structure Result.Readable (r : Result) : Prop where
  object : r.value.isObject = true
  plain : Value.Plain 125 r.value

/-- The invocation that a result reads as. -/
def Result.asInvocation (r : Result) : Invocation := ⟨r.name, r.value, r.callId⟩

/-- Results that were written are read back as invocations. -/
theorem parse_renderAll {results : List Result} (h : ∀ r ∈ results, r.Readable) :
    Batch.parse (Text.utf8 (Result.renderAll results)) = .ok (results.map Result.asInvocation) := by
  have hsame : results.map Result.toValue = (results.map Result.asInvocation).map Invocation.toValue := by
    rw [List.map_map]
    rfl
  rw [Result.renderAll, hsame]
  refine Batch.parse_written ?_ ?_
  · exact List.forall_mem_map.mpr fun r hr => (h r hr).object
  · exact List.forall_mem_map.mpr fun r hr => (h r hr).plain

/-- A text shows results: it is the JSON list of their triples, and is read as the batch of these. -/
structure Shows (text : String) (results : List Result) : Prop where
  written : text =
    (Value.array (results.map fun r => .array [.string r.name, r.value, .string r.callId])).render
  read : Batch.parse (Text.utf8 text) = .ok (results.map fun r => ⟨r.name, r.value, r.callId⟩)

theorem shows_renderAll {results : List Result} (h : ∀ r ∈ results, r.Readable) :
    Shows (Result.renderAll results) results := ⟨rfl, parse_renderAll h⟩

section Values

variable (depth : Nat)

theorem plain_errorForm (form : ErrorForm) (e : MethodError) : Value.Plain (depth + 1) (form.toValue e) := by
  refine Json.plain_ofMembers (List.forall_mem_cons.mpr ⟨.string _ _, ?_⟩)
  split
  · exact List.forall_mem_singleton.mpr (.string _ _)
  · exact nofun

theorem plain_outcome (o : Outcome) : Value.Plain (depth + 1) o.toValue := by
  cases o with
  | created id => exact Json.plain_ofMembers (List.forall_mem_singleton.mpr (.string _ _))
  | notCreated type description =>
    refine Json.plain_ofMembers (List.forall_mem_cons.mpr ⟨.string _ _, ?_⟩)
    exact List.forall_mem_singleton.mpr (.string _ _)

theorem plain_creationValue (user : String) (outcomes : List (String × Outcome)) :
    Value.Plain (depth + 3) (creationValue user outcomes) := by
  have hpart : ∀ keep : Outcome → Bool, Value.Plain (depth + 2)
      (.ofMembers ((outcomes.filter (keep ·.2)).map fun e => (e.1, e.2.toValue))) := fun keep =>
    Json.plain_ofMembers (List.forall_mem_map.mpr fun e _ => plain_outcome depth e.2)
  refine Json.plain_ofMembers ?_
  simp only [List.forall_mem_cons]
  exact ⟨.string _ _, hpart (·.isCreated), hpart (!·.isCreated), nofun⟩

theorem plain_view (v : View) : Value.Plain (depth + 1) v.toValue := by
  refine Json.plain_ofMembers ?_
  simp only [List.forall_mem_cons]
  exact ⟨.string _ _, .string _ _, Json.plain_ofText? _ _, Json.plain_ofText? _ _, .natural _ _, nofun⟩

theorem plain_listingValue (user : String) (views : List View) (notFound : List String) :
    Value.Plain (depth + 3) (listingValue user views notFound) := by
  refine Json.plain_ofMembers ?_
  simp only [List.forall_mem_cons]
  refine ⟨.string _ _, .array ?_, .array ?_, nofun⟩
  · exact List.forall_mem_map.mpr fun v _ => plain_view depth v
  · exact List.forall_mem_map.mpr fun id _ => .string _ id

end Values

section Batch

open Service (Attempt Call Note Script)

variable {σ : Type} {answer : (c : Call) → σ → c.Reply × σ} {caller : Caller} {s after : σ}
variable {notes : List Note}

/-- What a call succeeds with is an object, nested three deep, whoever answers. -/
theorem plain_call {i : Invocation} {name : String} {value : Value}
    (h : Script.Runs answer (Methods.mailboxMethods.call i caller) s (.ok (name, value)) after notes) :
    value.isObject = true ∧ Value.Plain 125 value := by
  unfold Methods.call at h
  -- one of the two methods, or none
  rcases find?_mailboxMethods i.method with hfind | hfind | hfind
  · rw [hfind] at h
    obtain ⟨result, s₁, n₁, n₂, hprocess, hnamed, -⟩ := Script.Runs.of_bind h
    cases result with
    | error e => cases hnamed
    | ok v =>
      cases hnamed
      obtain ⟨creations, s₂, n₃, n₄, -, hthen⟩ := Attempt.Runs.of_bind_ok hprocess
      obtain ⟨existing, s₃, n₅, n₆, -, hthen⟩ := Attempt.Runs.of_bind_ok hthen
      obtain ⟨outcomes, s₄, n₇, n₈, -, hdone⟩ := Attempt.Runs.of_bind_ok hthen
      cases hdone
      exact ⟨rfl, plain_creationValue 122 caller.user outcomes⟩
  · rw [hfind] at h
    obtain ⟨result, s₁, n₁, n₂, hprocess, hnamed, -⟩ := Script.Runs.of_bind h
    cases result with
    | error e => cases hnamed
    | ok v =>
      cases hnamed
      obtain ⟨ids, s₂, n₃, n₄, -, hthen⟩ := Attempt.Runs.of_bind_ok hprocess
      obtain ⟨listed, s₃, n₅, n₆, -, hdone⟩ := Attempt.Runs.of_bind_ok hthen
      cases listed with
      | error cause => cases hdone
      | ok mailboxes =>
        cases hdone
        exact ⟨rfl, plain_listingValue 122 caller.user _ _⟩
  · rw [hfind] at h
    cases h

/-- A call is answered with a readable result under its own id, by a value or by an error. -/
theorem readable_execute {i : Invocation} {r : Result}
    (h : Script.Runs answer (Methods.mailboxMethods.execute i caller) s r after notes) :
    r.Readable ∧ r.callId = i.callId := by
  obtain ⟨called, s₁, n₁, n₂, hcall, hthen, -⟩ := Script.Runs.of_bind h
  cases called with
  | ok value =>
    cases hthen
    obtain ⟨hobject, hplain⟩ := plain_call hcall
    exact ⟨⟨hobject, hplain⟩, rfl⟩
  | error cause =>
    cases hthen
    exact ⟨⟨rfl, plain_errorForm 124 _ cause⟩, rfl⟩

/-- **The results of a batch** are readable, one for each call under its id. Induction on the batch. -/
theorem readable_dispatch {batch : List Invocation} {results : List Result}
    (h : Script.Runs answer (Methods.mailboxMethods.dispatch caller batch) s results after notes) :
    (∀ r ∈ results, r.Readable) ∧ results.map (·.callId) = batch.map (·.callId) := by
  induction batch generalizing s results notes with
  | nil =>
    cases h
    exact ⟨nofun, rfl⟩
  | cons i batch ih =>
    obtain ⟨r, s₁, n₁, n₂, hexecute, hthen, -⟩ := Script.Runs.of_bind h
    obtain ⟨rest, s₂, n₃, n₄, hrest, hdone, -⟩ := Script.Runs.of_bind hthen
    cases hdone
    obtain ⟨hr, hid⟩ := readable_execute hexecute
    obtain ⟨hreadable, hids⟩ := ih hrest
    exact ⟨List.forall_mem_cons.mpr ⟨hr, hreadable⟩, by rw [List.map_cons, List.map_cons, hid, hids]⟩

end Batch

end MailServer.Jmap
