import MailServer.Proofs.Name

/-!
# Spellings of a name

Clients may write a name in several ways: with a delimiter at its end, and with INBOX in any letter case as
the first component. Resolving brings all spellings of a name to one and keeps different names apart.

* `intercalate_pieces`, `pieces_intercalate` — the components of a text, and the text of components.
* `untrailed`, `spelledComponents` — the components that a client means.
* `canonicalName_eq` — the canonical name is made of them.
* `Refused`, `resolve_cases` — the names that stand for no mailbox, and the path of any other.
* `resolve_canonicalises` — resolving as a choice of one spelling.
-/

namespace MailServer.Text

variable {d : Char}

/-! ## Components and their text -/

theorem intercalate_cons {p : List Char} {ps : List (List Char)} (h : ps ≠ []) :
    [d].intercalate (p :: ps) = p ++ d :: [d].intercalate ps := by
  obtain ⟨q, qs, rfl⟩ := List.exists_cons_of_ne_nil h
  rw [List.intercalate_cons_cons, List.append_assoc, List.singleton_append]

theorem intercalate_pieces (d : Char) (cs : List Char) : [d].intercalate (pieces (· == d) cs) = cs := by
  induction cs with
  | nil => rfl
  | cons c cs ih =>
    rw [pieces]
    split
    · rename_i hc
      rw [intercalate_cons (pieces_ne_nil _ cs), ih, List.nil_append, beq_iff_eq.mp hc]
    · -- the first component gets one character more, whether others follow it or not
      cases hcs : pieces (· == d) cs with
      | nil => exact absurd hcs (pieces_ne_nil _ cs)
      | cons p ps =>
        rw [hcs] at ih
        rw [← ih]
        cases ps with
        | nil => rw [List.intercalate_singleton, List.intercalate_singleton]
        | cons q qs => rw [List.intercalate_cons_cons, List.intercalate_cons_cons]; rfl

theorem pieces_injective (d : Char) : Function.Injective (pieces (· == d)) :=
  Function.LeftInverse.injective (intercalate_pieces d)

theorem not_mem_of_mem_pieces {cs p : List Char} (h : p ∈ pieces (· == d) cs) : d ∉ p := by
  induction cs generalizing p with
  | nil =>
    rw [List.mem_singleton.mp h]
    exact List.not_mem_nil
  | cons c cs ih =>
    rw [pieces] at h
    split at h
    · rcases List.mem_cons.mp h with rfl | h
      · exact List.not_mem_nil
      · exact ih h
    · rename_i hc
      have hne : d ≠ c := fun heq => hc (beq_iff_eq.mpr heq.symm)
      cases hcs : pieces (· == d) cs with
      | nil => exact absurd hcs (pieces_ne_nil _ cs)
      | cons q qs =>
        rw [hcs] at h ih
        rcases List.mem_cons.mp h with rfl | h
        · rw [List.mem_cons, not_or]
          exact ⟨hne, ih List.mem_cons_self⟩
        · exact ih (List.mem_cons_of_mem _ h)

theorem pieces_intercalate {ps : List (List Char)} (hne : ps ≠ []) (h : ∀ p ∈ ps, d ∉ p) :
    pieces (· == d) ([d].intercalate ps) = ps := by
  induction ps with
  | nil => exact absurd rfl hne
  | cons p ps ih =>
    have hp : d ∉ p := h p List.mem_cons_self
    cases ps with
    | nil => rw [List.intercalate_singleton, pieces_of_not_mem hp]
    | cons q qs =>
      have hrest := ih (List.cons_ne_nil q qs) fun r hr => h r (List.mem_cons_of_mem _ hr)
      rw [intercalate_cons (List.cons_ne_nil q qs), pieces_append, pieces_of_not_mem hp, hrest,
        List.singleton_append]

end MailServer.Text

namespace MailServer.Mailbox

open Text (pieces)

/-! ## What a client means -/

/-- A name as a client writes it, without one delimiter at its end. -/
def untrailed (d : Char) (cs : List Char) : List Char :=
  if cs.getLast? = some d then cs.dropLast else cs

/-- A first component in its own spelling, which is INBOX where it is INBOX but for letter case. -/
def ownSpelling (c : List Char) : List Char :=
  if Text.sameFolded (String.ofList c) inbox then inbox.toList else c

/-- The components that a client means by a name. -/
def spelledComponents (d : Char) (name : String) : List (List Char) :=
  (pieces (· == d) (untrailed d name.toList)).modifyHead ownSpelling

variable {d : Char} {cs : List Char}

theorem dropOneLast_eq (d : Char) (cs : List Char) : Text.dropOneLast d cs = untrailed d cs := by
  unfold untrailed
  split
  · rename_i hlast
    obtain ⟨front, rfl⟩ := List.getLast?_eq_some_iff.mp hlast
    rw [Text.dropOneLast, Text.cutLast_append List.not_mem_nil, List.dropLast_concat]
  · rename_i hlast
    unfold Text.dropOneLast
    split
    · rename_i front hcut
      refine absurd ?_ hlast
      rw [(Text.append_of_cutLast hcut).1, List.getLast?_concat]
    · rfl

theorem canonicalName_eq (d : Char) (cs : List Char) :
    canonicalName d cs = [d].intercalate ((pieces (· == d) cs).modifyHead ownSpelling) := by
  unfold canonicalName
  cases hcut : Text.cutFirst d cs with
  | none =>
    rw [Text.pieces_of_not_mem (Text.cutFirst_eq_none_iff.mp hcut)]
    exact List.intercalate_singleton.symm
  | some cut =>
    obtain ⟨first, rest⟩ := cut
    rw [Text.pieces_of_cutFirst hcut, List.modifyHead_cons, Text.intercalate_cons (Text.pieces_ne_nil _ rest),
      Text.intercalate_pieces, ownSpelling]
    dsimp only
    split
    · rfl
    · exact (Text.append_of_cutFirst hcut).1

theorem spelledComponents_ne_nil (d : Char) (name : String) : spelledComponents d name ≠ [] := by
  rw [spelledComponents, ne_eq, List.modifyHead_eq_nil_iff]
  exact Text.pieces_ne_nil _ _

theorem not_mem_of_mem_spelledComponents (hd : d ∉ inbox.toList) {name : String} {c : List Char}
    (h : c ∈ spelledComponents d name) : d ∉ c := by
  rw [spelledComponents] at h
  cases hcomponents : pieces (· == d) (untrailed d name.toList) with
  | nil => exact absurd hcomponents (Text.pieces_ne_nil _ _)
  | cons first rest =>
    have hfree : ∀ p ∈ first :: rest, d ∉ p := fun p hp => Text.not_mem_of_mem_pieces (hcomponents ▸ hp)
    rw [hcomponents, List.modifyHead_cons] at h
    rcases List.mem_cons.mp h with rfl | h
    · unfold ownSpelling
      split
      · exact hd
      · exact hfree first List.mem_cons_self
    · exact hfree c (List.mem_cons_of_mem _ h)

/-! ## Resolving -/

/-- A name, already without the delimiter at its end, that stands for no mailbox. -/
def Refused (d : Char) (cs : List Char) : Prop :=
  cs = [] ∨ cs.head? = some '#' ∨ [] ∈ pieces (· == d) cs

instance : Decidable (Refused d cs) :=
  inferInstanceAs (Decidable (cs = [] ∨ cs.head? = some '#' ∨ [] ∈ pieces (· == d) cs))

theorem checkName_eq_none_iff_not_refused : checkName d cs = none ↔ ¬ Refused d cs := by
  have hempty : cs = [] → [] ∈ pieces (· == d) cs := by
    rintro rfl
    exact List.mem_cons_self
  rw [checkName_eq_none_iff, Refused, not_or, not_or]
  constructor
  · rintro ⟨hcomponents, hmark⟩
    exact ⟨fun hnil => hcomponents [] (hempty hnil) rfl, hmark, fun hmem => hcomponents [] hmem rfl⟩
  · rintro ⟨-, hmark, hcomponents⟩
    exact ⟨fun c hc hnil => hcomponents (hnil ▸ hc), hmark⟩

/-- A name is refused, or it stands for the path with the components that are meant. -/
theorem resolve_cases (d : Char) (user name : String) :
    (Refused d (untrailed d name.toList) ∧
      ∃ reason, resolve ⟨user, d⟩ name = .error (.invalidName name reason)) ∨
    (¬ Refused d (untrailed d name.toList) ∧
      resolve ⟨user, d⟩ name = .ok ⟨user, String.ofList ([d].intercalate (spelledComponents d name))⟩) := by
  unfold resolve
  dsimp only
  rw [dropOneLast_eq]
  cases hcheck : checkName d (untrailed d name.toList) with
  | none =>
    refine Or.inr ⟨checkName_eq_none_iff_not_refused.mp hcheck, ?_⟩
    rw [canonicalName_eq, spelledComponents]
  | some reason =>
    refine Or.inl ⟨?_, reason, rfl⟩
    by_contra hfine
    cases hcheck.symm.trans (checkName_eq_none_iff_not_refused.mpr hfine)

theorem eq_of_resolve {user name : String} {p : Path} (h : resolve ⟨user, d⟩ name = .ok p) :
    p = ⟨user, String.ofList ([d].intercalate (spelledComponents d name))⟩ := by
  rcases resolve_cases d user name with ⟨-, reason, hr⟩ | ⟨-, hr⟩
  · cases hr.symm.trans h
  · exact Except.ok.inj (h.symm.trans hr)

/-- **Resolving a name is a choice of one spelling**, where INBOX is a single component. The path that a
name stands for has the components that are meant; its name is canonical, has no delimiter at its end, and
stands for the same path again. Two names stand for one path just where they are the same when one
delimiter at the end is left out and a first component that means the inbox has its own spelling. A name is
refused just where it is empty without the delimiter at its end, or begins like a namespace, or has an
empty component. -/
theorem resolve_canonicalises (user : String) {d : Char} (hd : d ∉ inbox.toList) :
    (∀ name p, resolve ⟨user, d⟩ name = .ok p →
      p.user = user ∧ pieces (· == d) p.name.toList = spelledComponents d name ∧
      Canonical d p.name.toList ∧ p.name.toList.getLast? ≠ some d ∧ resolve ⟨user, d⟩ p.name = .ok p) ∧
    (∀ name name' p p', resolve ⟨user, d⟩ name = .ok p → resolve ⟨user, d⟩ name' = .ok p' →
      (p = p' ↔ [d].intercalate (spelledComponents d name) = [d].intercalate (spelledComponents d name'))) ∧
    (∀ name,
      ((∃ reason, resolve ⟨user, d⟩ name = .error (.invalidName name reason)) ↔
        Refused d (untrailed d name.toList)) ∧
      ((∃ p, resolve ⟨user, d⟩ name = .ok p) ↔ ¬ Refused d (untrailed d name.toList))) := by
  refine ⟨?_, ?_, ?_⟩
  · intro name p h
    have hcanonical : Canonical d p.name.toList := canonical_of_resolve hd h
    obtain rfl := eq_of_resolve h
    refine ⟨rfl, ?_, hcanonical, ?_, resolve_of_canonical user hcanonical⟩
    · rw [String.toList_ofList]
      exact Text.pieces_intercalate (spelledComponents_ne_nil d name)
        fun c hc => not_mem_of_mem_spelledComponents hd hc
    · -- behind a delimiter at the end there would be an empty component
      intro hlast
      obtain ⟨front, hfront⟩ := List.getLast?_eq_some_iff.mp hlast
      refine hcanonical.components [] ?_ rfl
      rw [hfront, Text.pieces_append]
      exact List.mem_append_right _ List.mem_cons_self
  · intro name name' p p' h h'
    rw [eq_of_resolve h, eq_of_resolve h', Path.mk.injEq, String.ofList_inj]
    exact and_iff_right rfl
  · intro name
    rcases resolve_cases d user name with ⟨hrefused, reason, hr⟩ | ⟨hfine, hr⟩
    · rw [hr]
      exact ⟨iff_of_true ⟨reason, rfl⟩ hrefused, iff_of_false nofun (not_not.mpr hrefused)⟩
    · rw [hr]
      exact ⟨iff_of_false nofun hfine, iff_of_true ⟨_, rfl⟩ hfine⟩

/-- Two spellings of a mailbox inside the inbox, another mailbox whose name begins with the same letters, and
a name that is refused for its component before the delimiter at its end. -/
theorem resolve_canonicalises_inside_inbox :
    '.' ∉ inbox.toList ∧
    (∃ p q, resolve ⟨"ann", '.'⟩ "InBox.Sub." = .ok p ∧ resolve ⟨"ann", '.'⟩ "INBOX.Sub" = .ok p ∧
      resolve ⟨"ann", '.'⟩ p.name = .ok p ∧ resolve ⟨"ann", '.'⟩ "Inboxes.Sub" = .ok q ∧ p ≠ q) ∧
    ∃ reason, resolve ⟨"ann", '.'⟩ "INBOX.." = .error (.invalidName "INBOX.." reason) := by
  have hd : '.' ∉ inbox.toList := by decide
  obtain ⟨hspelled, hsame, hrefused⟩ := resolve_canonicalises "ann" hd
  obtain ⟨p, hp⟩ := (hrefused "InBox.Sub.").2.mpr (by decide)
  obtain ⟨p', hp'⟩ := (hrefused "INBOX.Sub").2.mpr (by decide)
  obtain ⟨q, hq⟩ := (hrefused "Inboxes.Sub").2.mpr (by decide)
  obtain rfl : p = p' := (hsame _ _ p p' hp hp').mpr (by decide)
  have hother : p ≠ q := (hsame _ _ p q hp hq).not.mpr (by decide)
  exact ⟨hd, ⟨p, q, hp, hp', (hspelled _ p hp).2.2.2.2, hq, hother⟩, (hrefused "INBOX..").1.mpr (by decide)⟩

end MailServer.Mailbox
