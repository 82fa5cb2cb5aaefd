import MailServer.Json.Parser
import MailServer.Proofs.Mirror

/-!
# Reading escaped bytes — containers and values

The two readers of `Mirror` go on inside lists and objects. The loops of the parser count down from
the number of bytes, which is larger on the escaped side; a value takes a byte at least, so neither
count runs out and both loops could have started from the larger one.

* `Moves s lead x y` — the two readers look for the next element or member and find the same.
* `Takes s x y` — mirrored readers that take a byte at least.
* `readElements_count`, `readMembers_count` — a count beyond the number of bytes does not matter.
* `takes_value` — values, at the same depth on both sides.
-/

namespace MailServer.Json

open Jmap (Quoting escapeFrom escapeControls)

/-! ## The byte behind the blanks -/

/-- The first byte is the same on both sides, and what follows it is the rest, escaped. -/
theorem escapeControls_cons_cases (b : UInt8) (s : List UInt8) :
    ∃ t, escapeControls (b :: s) = b :: t ∧ (0x22 < b → t = escapeControls s) ∧
      (b = 0x22 → t = escapeFrom .inside s) := by
  by_cases hquote : b = 0x22
  · subst hquote
    exact ⟨_, escapeControls_quote s, fun h => absurd h (by decide), fun _ => rfl⟩
  · exact ⟨_, escapeControls_cons hquote s, fun _ => rfl, fun h => absurd h hquote⟩

/-- Behind the blanks both sides are at their end, or in front of the same byte. -/
theorem skipBlank_cases (s : List UInt8) :
    (skipBlank s = [] ∧ skipBlank (escapeControls s) = []) ∨
    ∃ b rest t, skipBlank s = b :: rest ∧ skipBlank (escapeControls s) = b :: t ∧
      Passes .outside s (b :: rest) ∧ (0x22 < b → t = escapeControls rest) ∧
      (b = 0x22 → t = escapeFrom .inside rest) := by
  obtain ⟨heq, hp⟩ := skipBlank_escapeControls s
  cases hs : skipBlank s with
  | nil => exact Or.inl ⟨rfl, by rw [heq, hs]; rfl⟩
  | cons b rest =>
    obtain ⟨t, ht, hcopy, hquote⟩ := escapeControls_cons_cases b rest
    rw [hs] at heq hp
    exact Or.inr ⟨b, rest, t, rfl, heq.trans ht, hp, hcopy, hquote⟩

/-! ## Moving on inside a container -/

/-- The answers to where the next element or member is. It is behind `lead`, which has been read;
where there is none, the closing bracket comes next. -/
inductive Moves (s lead : List UInt8) :
    Except Fault (Option (List UInt8)) → Except Fault (Option (List UInt8)) → Prop where
  | refused (f g : Fault) : Moves s lead (.error f) (.error g)
  | closed (b : UInt8) (t : List UInt8) (hs : skipBlank s = b :: t) (hb : 0x22 < b) :
      Moves s lead (.ok none) (.ok none)
  | found (t t' : List UInt8) (hp : Passes .outside s (lead ++ t))
      (ht : escapeControls (lead ++ t) = lead ++ t') : Moves s lead (.ok (some t)) (.ok (some t'))

namespace Moves

variable {s lead : List UInt8} {x y : Except Fault (Option (List UInt8))}

theorem length_le (h : Moves s lead x y) {t : List UInt8} (hx : x = .ok (some t)) :
    t.length ≤ s.length := by
  cases h with
  | refused => cases hx
  | closed => cases hx
  | found u u' hp =>
    cases hx
    have hlen := hp.length_le
    rw [List.length_append] at hlen
    omega

/-- What is read behind the answer, in the two cases in which there is one. -/
theorem bind {β : Type} (h : Moves s lead x y)
    {f g : Option (List UInt8) → Except Fault (β × List UInt8)}
    (hnone : ∀ b t, skipBlank s = b :: t → 0x22 < b → Mirrors .outside s (f none) (g none))
    (hsome : ∀ t t', escapeControls (lead ++ t) = lead ++ t' →
      Mirrors .outside (lead ++ t) (f (some t)) (g (some t'))) :
    Mirrors .outside s (x >>= f) (y >>= g) := by
  cases h with
  | refused => exact .refused _ _
  | closed b t hs hb => exact hnone b t hs hb
  | found t t' hp ht => exact (hsome t t' ht).after hp

end Moves

/-- A container that is closed is left behind its bracket. -/
theorem mirrors_closed {α : Type} (a : α) {s t : List UInt8} {b : UInt8} (hs : skipBlank s = b :: t)
    (hb : 0x22 < b) :
    Mirrors .outside s (.ok (a, (skipBlank s).tail)) (.ok (a, (skipBlank (escapeControls s)).tail)) := by
  obtain ⟨heq, hp⟩ := skipBlank_escapeControls s
  rw [hs] at hp
  rw [heq, hs, escapeControls_cons (ne_quote_of_lt hb)]
  exact .accepted a t (hp.trans ((Passes.refl t).cons (Spot.next_outside hb)))

theorem moves_element (first : Bool) (s : List UInt8) :
    Moves s [] (nextElement first s) (nextElement first (escapeControls s)) := by
  unfold nextElement
  obtain ⟨hs, hs'⟩ | ⟨b, rest, t, hs, hs', hp, hcopy, hquote⟩ := skipBlank_cases s
  · rw [hs, hs']
    exact .refused _ _
  have hhere : escapeControls (b :: rest) = b :: t := by
    rw [← (skipBlank_escapeControls s).1.symm.trans hs', hs]
  simp only [hs, hs']
  split
  · rename_i hb
    exact .closed b rest hs (hb ▸ by decide)
  split
  · exact .found _ _ hp hhere
  split
  · rename_i hb
    subst hb
    have hbehind : Passes .outside s rest :=
      hp.trans ((Passes.refl rest).cons (Spot.next_outside (by decide)))
    rw [hcopy (by decide)]
    obtain ⟨hrest, hrest'⟩ | ⟨c, after, u, hrest, hrest', hq, -, -⟩ := skipBlank_cases rest
    · rw [hrest, hrest']
      exact .refused _ _
    have hnext : escapeControls (c :: after) = c :: u := by
      rw [← (skipBlank_escapeControls rest).1.symm.trans hrest', hrest]
    rw [hrest, hrest']
    dsimp only
    split
    · exact .refused _ _
    · exact .found _ _ (hbehind.trans hq) hnext
  · exact .refused _ _

theorem moves_member (first : Bool) (s : List UInt8) :
    Moves s [0x22] (nextMember first s) (nextMember first (escapeControls s)) := by
  unfold nextMember
  obtain ⟨hs, hs'⟩ | ⟨b, rest, t, hs, hs', hp, hcopy, hquote⟩ := skipBlank_cases s
  · rw [hs, hs']
    exact .refused _ _
  simp only [hs, hs']
  split
  · rename_i hb
    exact .closed b rest hs (hb ▸ by decide)
  split
  · split
    · rename_i hb
      subst hb
      exact .found _ _ hp (by rw [hquote rfl]; rfl)
    · exact .refused _ _
  split
  · rename_i hb
    subst hb
    have hbehind : Passes .outside s rest :=
      hp.trans ((Passes.refl rest).cons (Spot.next_outside (by decide)))
    rw [hcopy (by decide)]
    obtain ⟨hrest, hrest'⟩ | ⟨c, after, u, hrest, hrest', hq, -, hopen⟩ := skipBlank_cases rest
    · rw [hrest, hrest']
      exact .refused _ _
    rw [hrest, hrest']
    dsimp only
    split
    · rename_i hc
      subst hc
      exact .found _ _ (hbehind.trans hq) (by rw [hopen rfl]; rfl)
    · split
      · exact .refused _ _
      · exact .refused _ _
  · exact .refused _ _

theorem mirrors_colon (s : List UInt8) :
    Mirrors .outside s (readColon s) (readColon (escapeControls s)) := by
  unfold readColon
  obtain ⟨hs, hs'⟩ | ⟨b, rest, t, hs, hs', hp, hcopy, -⟩ := skipBlank_cases s
  · rw [hs, hs']
    exact .refused _ _
  rw [hs, hs']
  dsimp only
  split
  · rename_i hb
    subst hb
    rw [hcopy (by decide)]
    exact (Mirrors.accepted () rest (Passes.refl rest)).cons_outside (by decide) |>.after hp
  · exact .refused _ _

/-! ## Loops -/

section Loops

variable {α : Type} {lenient strict : Reader α}
variable (h : ∀ s, Mirrors .outside s (lenient s) (strict (escapeControls s)))
include h

/-- The elements of a list, from the same count on both sides. Induction on the count. -/
theorem mirrors_elements (count : Nat) (first : Bool) (s : List UInt8) :
    Mirrors .outside s (readElements lenient count first s)
      (readElements strict count first (escapeControls s)) := by
  induction count generalizing first s with
  | zero => exact .refused _ _
  | succ count ih =>
    rw [readElements, readElements]
    refine (moves_element first s).bind (fun b t hs hb => mirrors_closed [] hs hb) ?_
    rintro t t' ht
    rw [List.nil_append, List.nil_append] at ht
    subst ht
    refine (h t).bind fun x rest _ => ?_
    refine (ih false rest).bind fun xs rest _ => ?_
    exact .accepted (x :: xs) rest (Passes.refl rest)

/-- The members of an object. Their names are strings, read behind the opening quote. -/
theorem mirrors_members (count : Nat) (first : Bool) (s : List UInt8) :
    Mirrors .outside s (readMembers .kept lenient count first s)
      (readMembers .refused strict count first (escapeControls s)) := by
  induction count generalizing first s with
  | zero => exact .refused _ _
  | succ count ih =>
    rw [readMembers, readMembers]
    refine (moves_member first s).bind (fun b t hs hb => mirrors_closed [] hs hb) ?_
    -- the element found is the quote of a name, which is read behind it
    rintro t t' ht
    obtain rfl : t' = escapeFrom .inside t := (List.cons.inj ht).2.symm
    refine Mirrors.cons rfl ?_
    refine (mirrors_string t).bind fun name rest _ => ?_
    refine (mirrors_colon rest).bind fun _ rest _ => ?_
    refine (h rest).bind fun x rest _ => ?_
    refine (ih false rest).bind fun members rest _ => ?_
    exact .accepted ((name, x) :: members) rest (Passes.refl rest)

end Loops

/-- Two continuations agree where the first reader gets to. -/
theorem bind_congr_of_ok {ε α β : Type} {x : Except ε α} {f g : α → Except ε β}
    (h : ∀ a, x = .ok a → f a = g a) : x >>= f = x >>= g := by
  cases x with
  | error e => rfl
  | ok a => exact h a rfl

section Count

variable {α : Type} {value : Reader α}
variable (hshort : ∀ s a rest, value s = .ok (a, rest) → rest.length < s.length)
include hshort

/-- Every element takes a byte, so a count above the number of bytes does not run out. Induction on
one of the counts. -/
theorem readElements_count {n m : Nat} (first : Bool) (s : List UInt8) (hn : s.length < n)
    (hm : s.length < m) : readElements value n first s = readElements value m first s := by
  induction n generalizing m first s with
  | zero => omega
  | succ n ih =>
    cases m with
    | zero => omega
    | succ m =>
      rw [readElements, readElements]
      refine bind_congr_of_ok fun found hfound => ?_
      -- what is left behind an element is shorter, so both counts still suffice
      cases found with
      | none => rfl
      | some t =>
        have hlen := (moves_element first s).length_le hfound
        refine bind_congr_of_ok fun r hr => ?_
        have hlt := hshort t r.1 r.2 hr
        have hloop : readElements value n false r.2 = readElements value m false r.2 :=
          ih false r.2 (by omega) (by omega)
        dsimp only
        rw [hloop]

theorem readMembers_count {n m : Nat} (first : Bool) (s : List UInt8) (hn : s.length < n)
    (hm : s.length < m) :
    readMembers .kept value n first s = readMembers .kept value m first s := by
  induction n generalizing m first s with
  | zero => omega
  | succ n ih =>
    cases m with
    | zero => omega
    | succ m =>
      rw [readMembers, readMembers]
      refine bind_congr_of_ok fun found hfound => ?_
      cases found with
      | none => rfl
      | some t =>
        have hlen := (moves_member first s).length_le hfound
        refine bind_congr_of_ok fun name hname => ?_
        have hname := ((mirrors_string t).passes hname).length_le
        refine bind_congr_of_ok fun colon hcolon => ?_
        have hcolon := ((mirrors_colon name.2).passes hcolon).length_le
        refine bind_congr_of_ok fun r hr => ?_
        have hlt := hshort colon.2 r.1 r.2 hr
        have hloop : readMembers .kept value n false r.2 = readMembers .kept value m false r.2 :=
          ih false r.2 (by omega) (by omega)
        dsimp only
        rw [hloop]

end Count

/-! ## Values -/

/-- Mirrored answers of readers that take a byte at least. -/
structure Takes {α : Type} (s : List UInt8) (x y : Except Fault (α × List UInt8)) : Prop where
  mirrors : Mirrors .outside s x y
  shorter : ∀ a rest, x = .ok (a, rest) → rest.length < s.length

namespace Takes

variable {α β : Type} {s : List UInt8} {x y : Except Fault (α × List UInt8)}

theorem refused (f g : Fault) : Takes (α := α) s (.error f) (.error g) where
  mirrors := .refused f g
  shorter := fun _ _ h => nomatch h

/-- A byte is taken in front of the rest. -/
theorem cons {b : UInt8} {spot : Spot} (hnext : Spot.outside.next b = some spot)
    (h : Mirrors spot s x y) : Takes (b :: s) x y where
  mirrors := h.cons hnext
  shorter := fun _ _ hx => Nat.lt_succ_of_le (h.passes hx).length_le

theorem after {t : List UInt8} (hp : Passes .outside s t) (h : Takes t x y) : Takes s x y where
  mirrors := h.mirrors.after hp
  shorter := fun a rest hx => Nat.lt_of_lt_of_le (h.shorter a rest hx) hp.length_le

/-- Both readers branch on the same condition. -/
theorem ite {c : Prop} [Decidable c] {x' y' : Except Fault (α × List UInt8)}
    (hthen : c → Takes s x y) (helse : ¬ c → Takes s x' y') :
    Takes s (if c then x else x') (if c then y else y') := by
  split
  · rename_i hc
    exact hthen hc
  · rename_i hc
    exact helse hc

end Takes

/-- A value made of what has been read. -/
theorem Mirrors.wrap {α β : Type} {spot : Spot} {s : List UInt8}
    {x y : Except Fault (α × List UInt8)} (h : Mirrors spot s x y) (f : α → β) :
    Mirrors spot s (x >>= fun r => pure (f r.1, r.2)) (y >>= fun r => pure (f r.1, r.2)) :=
  h.bind fun a rest _ => .accepted (f a) rest (Passes.refl rest)

theorem mirrors_literal {letters : List Char} (hletters : letters.all (0x22 < byte ·) = true)
    (v : Value) (s : List UInt8) :
    Mirrors .outside s (readLiteral letters v s) (readLiteral letters v (escapeControls s)) := by
  have hword : ∀ w ∈ letters.map byte, 0x22 < w := by
    intro w hw
    obtain ⟨c, hc, rfl⟩ := List.mem_map.mp hw
    exact of_decide_eq_true (List.all_eq_true.mp hletters c hc)
  exact (mirrors_word hword s).wrap fun _ => v

/-- A number behind its minus sign. -/
theorem mirrors_negative (s : List UInt8) :
    Mirrors .outside s (readNumber true s) (readNumber true (escapeControls s)) := by
  cases s with
  | nil => exact .refused _ _
  | cons b s =>
    cases hd : digit? b with
    | none =>
      have hzero : b ≠ byte '0' := by
        rintro rfl
        cases hd
      have hfails : ∀ t, Fails (readNumber true (b :: t)) := fun t =>
        ⟨_, by rw [readNumber, if_neg hzero, hd]; rfl⟩
      obtain ⟨t, ht⟩ := escapeControls_head b s
      rw [ht]
      exact .of_fails (hfails s) (hfails t)
    | some d =>
      have hb := lt_of_digit? hd
      rw [escapeControls_cons (ne_quote_of_lt hb)]
      exact (mirrors_number true s (by rw [hd]; rfl)).cons_outside hb

/-- Escaping takes no byte away. Induction on the bytes. -/
theorem length_le_escapeFrom (q : Quoting) (s : List UInt8) :
    s.length ≤ (escapeFrom q s).length := by
  induction s generalizing q with
  | nil => exact Nat.le_refl 0
  | cons b s ih =>
    rw [escapeFrom]
    split
    · have hrest := ih q
      rw [List.length_append, List.length_cons]
      have hsix : (Jmap.escapeOf b).length = 6 := rfl
      omega
    · exact Nat.succ_le_succ (ih (q.next b))

section Containers

variable {α : Type} {lenient strict : Reader α}
variable (h : ∀ s, Takes s (lenient s) (strict (escapeControls s)))
include h

/-- A list, each side counting from its own number of bytes. -/
theorem mirrors_list (s : List UInt8) :
    Mirrors .outside s (readElements lenient (s.length + 1) true s)
      (readElements strict ((escapeControls s).length + 1) true (escapeControls s)) := by
  have hlen : s.length ≤ (escapeControls s).length := length_le_escapeFrom .outside s
  rw [readElements_count (fun s => (h s).shorter) (m := (escapeControls s).length + 1) true s
    (Nat.lt_succ_self _) (by omega)]
  exact mirrors_elements (fun s => (h s).mirrors) _ true s

theorem mirrors_object (s : List UInt8) :
    Mirrors .outside s (readMembers .kept lenient (s.length + 1) true s)
      (readMembers .refused strict ((escapeControls s).length + 1) true (escapeControls s)) := by
  have hlen : s.length ≤ (escapeControls s).length := length_le_escapeFrom .outside s
  rw [readMembers_count (fun s => (h s).shorter) (m := (escapeControls s).length + 1) true s
    (Nat.lt_succ_self _) (by omega)]
  exact mirrors_members (fun s => (h s).mirrors) _ true s

end Containers

/-- A value, given the values one level deeper. The first byte decides, on both sides alike. -/
theorem takes_value_of (depth : Nat)
    (hdeeper : ∀ deeper, depth = deeper + 1 → ∀ s,
      Takes s (readValue .kept deeper s) (readValue .refused deeper (escapeControls s)))
    (s : List UInt8) :
    Takes s (readValue .kept depth s) (readValue .refused depth (escapeControls s)) := by
  rw [readValue.eq_def, readValue.eq_def]
  dsimp only
  obtain ⟨hs, hs'⟩ | ⟨b, rest, t, hs, hs', hp, hcopy, hquote⟩ := skipBlank_cases s
  · rw [hs, hs']
    exact .refused _ _
  rw [hs, hs']
  dsimp only
  refine Takes.after hp ?_
  -- one branch for each first byte; `hcopy` and `hquote` say what stands behind it when escaped
  refine .ite (fun hb => ?_) fun _ => ?_
  · subst hb
    rw [hcopy (by decide)]
    exact .cons rfl (mirrors_literal rfl .null rest)
  refine .ite (fun hb => ?_) fun _ => ?_
  · subst hb
    rw [hcopy (by decide)]
    exact .cons rfl (mirrors_literal rfl (.bool true) rest)
  refine .ite (fun hb => ?_) fun _ => ?_
  · subst hb
    rw [hcopy (by decide)]
    exact .cons rfl (mirrors_literal rfl (.bool false) rest)
  refine .ite (fun hb => ?_) fun _ => ?_
  · subst hb
    rw [hcopy (by decide)]
    exact .cons rfl ((mirrors_negative rest).wrap Value.number)
  refine .ite (fun hb => ?_) fun _ => ?_
  · obtain ⟨d, hd⟩ := Option.isSome_iff_exists.mp hb
    have hlt := lt_of_digit? hd
    rw [hcopy hlt]
    exact .cons (Spot.next_outside hlt) ((mirrors_number false rest hb).wrap Value.number)
  refine .ite (fun hb => ?_) fun _ => ?_
  · subst hb
    rw [hquote rfl]
    exact .cons rfl ((mirrors_string rest).wrap Value.string)
  refine .ite (fun hb => ?_) fun _ => ?_
  · subst hb
    rw [hcopy (by decide)]
    cases depth with
    | zero => exact .refused _ _
    | succ deeper => exact .cons rfl ((mirrors_list (hdeeper deeper rfl) rest).wrap Value.array)
  refine .ite (fun hb => ?_) fun _ => ?_
  · subst hb
    rw [hcopy (by decide)]
    cases depth with
    | zero => exact .refused _ _
    | succ deeper => exact .cons rfl ((mirrors_object (hdeeper deeper rfl) rest).wrap Value.ofMembers)
  · exact .refused _ _

/-- **Values.** The lenient reader on the raw bytes and the strict one on the escaped bytes read the
same value or both fail, at every depth. Induction on the depth. -/
theorem takes_value (depth : Nat) (s : List UInt8) :
    Takes s (readValue .kept depth s) (readValue .refused depth (escapeControls s)) := by
  induction depth generalizing s with
  | zero => exact takes_value_of 0 (fun deeper h => by omega) s
  | succ depth ih =>
    refine takes_value_of (depth + 1) (fun deeper h => ?_) s
    obtain rfl := Nat.succ.inj h
    exact ih

end MailServer.Json
