import MailServer.Mailbox.Path
import MailServer.Proofs.Path

/-!
# Canonical names

A name is canonical where resolving it changes nothing: no component is empty, it does not begin
like a namespace, and a first component that means the inbox is spelled INBOX. Every way of making
a mailbox ends at such a name.

* `Canonical d cs` — the name `cs` is canonical under the delimiter `d`.
* `resolve_of_canonical` — a canonical name resolves to itself.
* `canonical_of_resolve` — what resolving gives is canonical, if INBOX is a single component.
* `Canonical.ancestor`, `Canonical.child` — from a mailbox outwards and inwards.
-/

namespace MailServer.Text

/-! ## Components -/

variable {d : Char}

theorem pieces_of_forall {p : Char → Bool} {cs : List Char} (h : ∀ c ∈ cs, p c = false) :
    pieces p cs = [cs] := by
  induction cs with
  | nil => rfl
  | cons c cs ih =>
    rw [List.forall_mem_cons] at h
    rw [pieces, if_neg (Bool.eq_false_iff.mp h.1), ih h.2]

/-- What separates stands between the components before it and those behind it. Induction on the text
before it. -/
theorem pieces_append_cons {p : Char → Bool} {c : Char} (hc : p c = true) (a b : List Char) :
    pieces p (a ++ c :: b) = pieces p a ++ pieces p b := by
  induction a with
  | nil =>
    show pieces p (c :: b) = [] :: pieces p b
    rw [pieces, if_pos hc]
  | cons x a ih =>
    rw [List.cons_append, pieces, pieces, ih]
    split
    · rfl
    · cases h : pieces p a with
      | nil => exact absurd h (pieces_ne_nil _ a)
      | cons q qs => rfl

theorem pieces_of_not_mem {cs : List Char} (h : d ∉ cs) : pieces (· == d) cs = [cs] :=
  pieces_of_forall fun _ hc => beq_false_of_ne fun heq => h (heq ▸ hc)

theorem pieces_append (a b : List Char) :
    pieces (· == d) (a ++ d :: b) = pieces (· == d) a ++ pieces (· == d) b :=
  pieces_append_cons (p := (· == d)) (beq_self_eq_true d) a b

/-- The first component ends at the first delimiter. -/
theorem pieces_of_cutFirst {cs a b : List Char} (h : cutFirst d cs = some (a, b)) :
    pieces (· == d) cs = a :: pieces (· == d) b := by
  obtain ⟨rfl, ha⟩ := append_of_cutFirst h
  rw [pieces_append, pieces_of_not_mem ha]
  rfl

theorem head?_pieces_append (a b : List Char) :
    (pieces (· == d) (a ++ d :: b)).head? = (pieces (· == d) a).head? := by
  rw [pieces_append]
  cases h : pieces (· == d) a with
  | nil => exact absurd h (pieces_ne_nil _ a)
  | cons p ps => rfl

end MailServer.Text

namespace MailServer.Mailbox

open Text (pieces)

/-! ## Canonical names -/

/-- The name is its own canonical form. -/
structure Canonical (d : Char) (cs : List Char) : Prop where
  components : ∀ c ∈ pieces (· == d) cs, c ≠ []
  unmarked : cs.head? ≠ some '#'
  inbox : ∀ c, (pieces (· == d) cs).head? = some c →
    Text.sameFolded (String.ofList c) inbox = true → c = inbox.toList

variable {d : Char} {cs : List Char}

/-- A name is refused for an empty component or for the sign of a namespace, and an empty name has
an empty component. -/
theorem checkName_eq_none_iff :
    checkName d cs = none ↔ (∀ c ∈ pieces (· == d) cs, c ≠ []) ∧ cs.head? ≠ some '#' := by
  cases cs with
  | nil => simp [checkName, pieces]
  | cons x cs =>
    by_cases hx : x = '#'
    · subst hx
      simp [checkName]
    · have hhead : (x :: cs).head? ≠ some '#' := by simpa using hx
      have hempty : (pieces (· == d) (x :: cs)).any (·.isEmpty) = true ↔
          ¬ ∀ c ∈ pieces (· == d) (x :: cs), c ≠ [] := by
        simp
      rw [checkName, and_iff_left hhead]
      · split
        · rename_i hany
          exact iff_of_false (by simp) (hempty.mp hany)
        · rename_i hany
          exact iff_of_true rfl (not_not.mp (mt hempty.mpr hany))
      · intro hnil
        cases hnil
      · intro t ht
        exact hx (List.cons.inj ht).1

theorem canonicalName_of_canonical (h : Canonical d cs) : canonicalName d cs = cs := by
  unfold canonicalName
  cases hcut : Text.cutFirst d cs with
  | none =>
    have hpieces := Text.pieces_of_not_mem (Text.cutFirst_eq_none_iff.mp hcut)
    dsimp only
    split
    · rename_i hfold
      exact (h.inbox cs (by rw [hpieces]; rfl) hfold).symm
    · rfl
  | some cut =>
    obtain ⟨first, rest⟩ := cut
    have hpieces := Text.pieces_of_cutFirst hcut
    dsimp only
    split
    · rename_i hfold
      rw [← h.inbox first (by rw [hpieces]; rfl) hfold]
      exact (Text.append_of_cutFirst hcut).1.symm
    · rfl

/-- A name without empty components does not end in a delimiter. -/
theorem dropOneLast_of_components (h : ∀ c ∈ pieces (· == d) cs, c ≠ []) :
    Text.dropOneLast d cs = cs := by
  unfold Text.dropOneLast
  split
  · rename_i a hcut
    obtain ⟨rfl, -⟩ := Text.append_of_cutLast hcut
    refine absurd rfl (h [] ?_)
    rw [Text.pieces_append]
    exact List.mem_append_right _ List.mem_cons_self
  · rfl

theorem resolve_of_canonical {name : String} (user : String) (h : Canonical d name.toList) :
    resolve ⟨user, d⟩ name = .ok ⟨user, name⟩ := by
  unfold resolve
  dsimp only
  rw [dropOneLast_of_components h.components, checkName_eq_none_iff.mpr ⟨h.components, h.unmarked⟩]
  dsimp only
  rw [canonicalName_of_canonical h, String.ofList_toList]

/-- A name that begins with INBOX itself has nothing left to spell. -/
theorem canonical_inbox (hd : d ∉ inbox.toList) {rest : List Char}
    (h : ∀ c ∈ pieces (· == d) rest, c ≠ []) : Canonical d (inbox.toList ++ d :: rest) where
  components c hc := by
    rw [Text.pieces_append, Text.pieces_of_not_mem hd] at hc
    rcases List.mem_cons.mp hc with rfl | hc
    · decide
    · exact h c hc
  unmarked := by
    intro hmark
    cases hmark
  inbox c hc _ := by
    rw [Text.head?_pieces_append, Text.pieces_of_not_mem hd] at hc
    exact (Option.some.inj hc).symm

/-- The canonical form of a name that is not refused is canonical, if INBOX is one component. -/
theorem canonical_canonicalName (hd : d ∉ inbox.toList) (h : checkName d cs = none) :
    Canonical d (canonicalName d cs) := by
  obtain ⟨hcomponents, hunmarked⟩ := checkName_eq_none_iff.mp h
  unfold canonicalName
  cases hcut : Text.cutFirst d cs with
  | none =>
    have hpieces := Text.pieces_of_not_mem (Text.cutFirst_eq_none_iff.mp hcut)
    dsimp only
    split
    -- the whole name means the inbox, which is a single component
    · refine ⟨?_, by decide, ?_⟩
      · rw [Text.pieces_of_not_mem hd]
        decide
      · intro c hc _
        rw [Text.pieces_of_not_mem hd] at hc
        exact (Option.some.inj hc).symm
    · rename_i hfold
      refine ⟨hcomponents, hunmarked, ?_⟩
      intro c hc hsame
      rw [hpieces] at hc
      cases hc
      exact absurd hsame hfold
  | some cut =>
    obtain ⟨first, rest⟩ := cut
    have hpieces := Text.pieces_of_cutFirst hcut
    dsimp only
    split
    -- the first component means the inbox, and the others stay as they are
    · refine canonical_inbox hd fun c hc => hcomponents c ?_
      rw [hpieces]
      exact List.mem_cons_of_mem _ hc
    · rename_i hfold
      refine ⟨hcomponents, hunmarked, ?_⟩
      intro c hc hsame
      rw [hpieces] at hc
      cases hc
      exact absurd hsame hfold

/-- A name that is not refused stands for a path of the caller. -/
theorem resolve_ok_iff {caller : Caller} {name : String} {p : Path} :
    resolve caller name = .ok p ↔
      checkName caller.delimiter (Text.dropOneLast caller.delimiter name.toList) = none ∧
      p = ⟨caller.user, String.ofList (canonicalName caller.delimiter
        (Text.dropOneLast caller.delimiter name.toList))⟩ := by
  rw [resolve]
  split
  · rename_i reason hcheck
    simp [hcheck]
  · rename_i hcheck
    simp [hcheck, eq_comm]

theorem user_of_resolve {caller : Caller} {name : String} {p : Path}
    (h : resolve caller name = .ok p) : p.user = caller.user := by
  rw [(resolve_ok_iff.mp h).2]

/-- **What resolving gives** is a canonical name. -/
theorem canonical_of_resolve {caller : Caller} {name : String} {p : Path}
    (hd : caller.delimiter ∉ inbox.toList) (h : resolve caller name = .ok p) :
    Canonical caller.delimiter p.name.toList := by
  obtain ⟨hcheck, rfl⟩ := resolve_ok_iff.mp h
  rw [String.toList_ofList]
  exact canonical_canonicalName hd hcheck

namespace Canonical

/-- A mailbox that encloses one with a canonical name has a canonical name. -/
theorem ancestor {p a : Path} (h : Canonical d p.name.toList) (ha : a ∈ p.ancestors d) :
    Canonical d a.name.toList := by
  obtain ⟨-, t, ht⟩ := Path.mem_ancestors_iff.mp ha
  rw [ht] at h
  refine ⟨?_, ?_, ?_⟩
  · intro c hc
    refine h.components c ?_
    rw [Text.pieces_append]
    exact List.mem_append_left _ hc
  · intro hmark
    refine h.unmarked ?_
    cases hname : a.name.toList with
    | nil =>
      rw [hname] at hmark
      cases hmark
    | cons x xs =>
      rw [hname] at hmark
      exact hmark
  · intro c hc
    exact h.inbox c (by rw [Text.head?_pieces_append, hc])

/-- So has one made inside it under a name of one component. -/
theorem child {p : Path} {leaf : String} (h : Canonical d p.name.toList) (hleaf : leaf.toList ≠ [])
    (hd : d ∉ leaf.toList) : Canonical d (p.child leaf d).name.toList := by
  have hname : (p.child leaf d).name.toList = p.name.toList ++ d :: leaf.toList :=
    Path.sibling_name p _
  rw [hname]
  refine ⟨?_, ?_, ?_⟩
  · intro c hc
    rw [Text.pieces_append, Text.pieces_of_not_mem hd, List.mem_append, List.mem_singleton] at hc
    rcases hc with hc | rfl
    · exact h.components c hc
    · exact hleaf
  · intro hmark
    cases hp : p.name.toList with
    | nil =>
      refine absurd rfl (h.components [] ?_)
      rw [hp]
      exact List.mem_cons_self
    | cons x xs =>
      rw [hp] at hmark
      refine h.unmarked ?_
      rw [hp]
      exact hmark
  · intro c hc
    rw [Text.head?_pieces_append] at hc
    exact h.inbox c hc

end Canonical

end MailServer.Mailbox
