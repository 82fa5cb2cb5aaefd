import MailServer.Jmap.Envelope
import MailServer.Proofs.Lenient

/-!
# Bodies with raw control bytes

A body is a list of triples. The server escapes its raw control bytes and reads the outcome
strictly; the reference reads the body as it is and lets a string hold them. Triples, lists of them
and the end of the text mirror each other as values do, so the two readings are one.

* `takes_invocation`, `mirrors_batch` — triples and lists of them.
* `readAll_escapeControls` — whole texts: both sides refuse, or both give the same and the machine
  of `Spot` gets to the end of the body.
* `Batch.parse_exact` — escaping and reading strictly is reading leniently, and no body with a
  misplaced control byte is read.
-/

namespace MailServer.Jmap

open Json

/-! ## Triples -/

theorem mirrors_text (expected : String) (s : List UInt8) :
    Mirrors .outside s (readText .kept expected s)
      (readText .refused expected (escapeControls s)) := by
  unfold readText
  obtain ⟨hs, hs'⟩ | ⟨b, rest, t, hs, hs', hp, -, hquote⟩ := skipBlank_cases s
  · rw [hs, hs']
    exact .refused _ _
  rw [hs, hs']
  dsimp only
  split
  · rename_i hb
    subst hb
    rw [hquote rfl]
    exact ((mirrors_string rest).cons rfl).after hp
  · exact .refused _ _

/-- The bracket behind the last element. -/
theorem mirrors_closeList (s : List UInt8) :
    Mirrors .outside s (closeList s) (closeList (escapeControls s)) := by
  unfold closeList
  obtain ⟨hs, hs'⟩ | ⟨b, rest, t, hs, hs', hp, hcopy, -⟩ := skipBlank_cases s
  · rw [hs, hs']
    exact .refused _ _
  rw [hs, hs']
  dsimp only
  split
  · rename_i hb
    subst hb
    rw [hcopy (by decide)]
    exact ((Mirrors.accepted () rest (Passes.refl rest)).cons_outside (by decide)).after hp
  split
  · rename_i hb
    subst hb
    rw [hcopy (by decide)]
    -- behind a comma every answer is a refusal
    obtain ⟨hrest, hrest'⟩ | ⟨c, after, u, hrest, hrest', -⟩ := skipBlank_cases rest
    · rw [hrest, hrest']
      exact .refused _ _
    · rw [hrest, hrest']
      dsimp only
      split <;> exact .refused _ _
  · exact .refused _ _

theorem takes_invocation (depth : Nat) (s : List UInt8) :
    Takes s (readInvocation .kept depth s) (readInvocation .refused depth (escapeControls s)) := by
  unfold readInvocation
  obtain ⟨hs, hs'⟩ | ⟨b, rest, t, hs, hs', hp, hcopy, -⟩ := skipBlank_cases s
  · rw [hs, hs']
    exact .refused _ _
  rw [hs, hs']
  dsimp only
  split
  · rename_i hb
    subst hb
    rw [hcopy (by decide)]
    refine (Takes.cons rfl ?_).after hp
    refine (moves_element true rest).bind (fun _ _ _ _ => .refused _ _) ?_
    rintro s t ht
    rw [List.nil_append, List.nil_append] at ht
    subst ht
    refine (mirrors_text "a string" s).bind fun method rest _ => ?_
    refine (moves_element false rest).bind (fun _ _ _ _ => .refused _ _) ?_
    rintro s t ht
    rw [List.nil_append, List.nil_append] at ht
    subst ht
    refine (takes_value depth s).mirrors.bind fun arguments rest _ => ?_
    refine (moves_element false rest).bind (fun _ _ _ _ => .refused _ _) ?_
    rintro s t ht
    rw [List.nil_append, List.nil_append] at ht
    subst ht
    refine (mirrors_text "a string" s).bind fun callId rest _ => ?_
    refine (mirrors_closeList rest).bind fun _ rest _ => ?_
    exact .accepted (Invocation.mk method arguments callId) rest (Passes.refl rest)
  · exact .refused _ _

theorem mirrors_batch (s : List UInt8) :
    Mirrors .outside s (readBatch .kept s) (readBatch .refused (escapeControls s)) := by
  unfold readBatch
  obtain ⟨hs, hs'⟩ | ⟨b, rest, t, hs, hs', hp, hcopy, -⟩ := skipBlank_cases s
  · rw [hs, hs']
    exact .refused _ _
  rw [hs, hs']
  dsimp only
  split
  · rename_i hb
    subst hb
    rw [hcopy (by decide)]
    exact ((mirrors_list (takes_invocation (maxDepth - 2)) rest).cons_outside (by decide)).after hp
  · exact .refused _ _

/-! ## Whole texts -/

theorem mirrors_end (s : List UInt8) :
    Mirrors .outside s (readEnd s) (readEnd (escapeControls s)) := by
  unfold readEnd
  obtain ⟨heq, hp⟩ := skipBlank_escapeControls s
  obtain ⟨hs, hs'⟩ | ⟨b, rest, t, hs, hs', -⟩ := skipBlank_cases s
  · rw [hs] at hp
    rw [hs, hs']
    exact .accepted () [] hp
  · rw [hs, hs']
    exact .refused _ _

/-- A whole text: both readers refuse it, or both give the same and no control byte of it is
misplaced. -/
theorem readAll_escapeControls {α : Type} {lenient strict : Reader α} {body : List UInt8}
    (h : Mirrors .outside body (lenient body) (strict (escapeControls body))) :
    (∃ e f, readAll lenient body = .error e ∧ readAll strict (escapeControls body) = .error f) ∨
    ∃ x, readAll lenient body = .ok x ∧ readAll strict (escapeControls body) = .ok x ∧
      scan .outside body = some .outside := by
  unfold readAll
  generalize lenient body = answer at h ⊢
  generalize strict (escapeControls body) = answer' at h ⊢
  cases h with
  | refused f g => exact Or.inl ⟨_, _, rfl, rfl⟩
  | accepted x rest hp =>
    -- the batch is the same; what is left of the text has to be blank on both sides
    have hend := mirrors_end rest
    dsimp only [bind, Except.bind]
    generalize hlast : readEnd rest = last at hend ⊢
    generalize readEnd (escapeControls rest) = last' at hend ⊢
    cases hend with
    | refused f g => exact Or.inl ⟨_, _, rfl, rfl⟩
    | accepted u behind hq =>
      have hnil : behind = [] := by
        unfold readEnd at hlast
        split at hlast
        · cases hlast
          rfl
        · cases hlast
      subst hnil
      obtain ⟨front, hfront, hscan⟩ := hp.trans hq
      rw [List.append_nil] at hfront
      subst hfront
      exact Or.inr ⟨x, rfl, rfl, hscan⟩

namespace Batch

/-- The two readings of a body agree on the batch, and one that gives a batch lets the machine get
to the end of the body. -/
theorem parse_cases (body : List UInt8) :
    ((∃ e, parseAs .kept body = .error e) ∧ ∃ e, parse body = .error e) ∨
    ∃ batch, parseAs .kept body = .ok batch ∧ parse body = .ok batch ∧
      scan .outside body = some .outside := by
  rw [parse, parseAs, parseAs]
  obtain ⟨e, f, he, hf⟩ | ⟨batch, hlenient, hstrict, hscan⟩ :=
    readAll_escapeControls (mirrors_batch body)
  · rw [he, hf]
    exact Or.inl ⟨⟨_, rfl⟩, _, rfl⟩
  · rw [hlenient, hstrict]
    dsimp only
    cases checkArguments batch with
    | error e => exact Or.inl ⟨⟨e, rfl⟩, e, rfl⟩
    | ok batch => exact Or.inr ⟨batch, rfl, rfl, hscan⟩

/-- **Lenient decoding is exact.** Escaping the raw control bytes of a body and reading it strictly
gives what reading it leniently gives, or neither gives a batch. In particular neither does where a
raw control byte stands outside of strings and is no blank, directly behind a backslash, inside a
hexadecimal escape or between the halves of a surrogate pair. -/
theorem parse_exact (body : List UInt8) :
    (∀ batch, parse body = .ok batch ↔ parseAs .kept body = .ok batch) ∧
    ∀ x b y, body = x ++ b :: y → b < 0x20 → Misplaced x b →
      (∀ batch, parse body ≠ .ok batch) ∧ ∀ batch, parseAs .kept body ≠ .ok batch := by
  obtain ⟨⟨e, hlenient⟩, f, hstrict⟩ | ⟨batch, hlenient, hstrict, hscan⟩ := parse_cases body
  · have hneither : (∀ batch, parse body ≠ .ok batch) ∧ ∀ batch, parseAs .kept body ≠ .ok batch :=
      ⟨fun _ h => (nomatch hstrict.symm.trans h), fun _ h => (nomatch hlenient.symm.trans h)⟩
    refine ⟨fun batch => ?_, fun _ _ _ _ _ _ => hneither⟩
    exact ⟨fun h => absurd h (hneither.1 batch), fun h => absurd h (hneither.2 batch)⟩
  · refine ⟨fun _ => by rw [hlenient, hstrict], ?_⟩
    rintro x b y rfl hb hplace
    exact absurd hplace (not_misplaced_of_scan hb hscan)

/-- A tab behind a backslash is refused by both readings. -/
theorem parse_exact_escaped_tab :
    (0x09 : UInt8) < 0x20 ∧ Misplaced ("[[\"a\\".toList.map byte) 0x09 ∧
      (∀ batch, parse ("[[\"a\\".toList.map byte ++ 0x09 :: "\",\x7b\x7d,\"c\"]]".toList.map byte) ≠
        .ok batch) ∧
      ∀ batch, parseAs .kept
        ("[[\"a\\".toList.map byte ++ 0x09 :: "\",\x7b\x7d,\"c\"]]".toList.map byte) ≠ .ok batch :=
  ⟨by decide, .escaped (by decide),
    (parse_exact _).2 _ _ _ rfl (by decide) (.escaped (by decide))⟩

/-- A tab in the text of a string is read as it is. -/
example : (parse ("[[\"a\t\",\x7b\x7d,\"c\"]]".toList.map byte)).toOption.map (·.map (·.method)) =
    some ["a\t"] := by
  decide +kernel

end Batch

end MailServer.Jmap
