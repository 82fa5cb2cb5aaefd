import Mathlib.Data.String.Basic
import MailServer.Mailbox.Path

/-!
# Paths — order and enclosure

* `Path` is strictly ordered by user and then by name.
* `Path.mem_ancestors_iff` — an ancestor's name is a beginning of the name that ends before a
  delimiter.
* `Path.ancestors_of_split` — the ancestors of an ancestor are the ones listed before it. Whoever
  creates the ancestors in order thus never meets one whose own ancestors are missing.
* `Path.pairwise_ancestors` — the ancestors are listed by increasing length.
* `Path.mem_ancestors_of_parent?` — the parent is one of the ancestors.
* `Path.ancestors_child`, `Path.parent?_child`, `Path.leaf_child` — a mailbox made inside another one.
-/

namespace MailServer.Text

/-! ## Beginnings before a delimiter -/

/-- The listed beginnings are those behind which a delimiter stands. Induction on the text. -/
theorem mem_headsBefore_iff {d : Char} {cs h : List Char} :
    h ∈ headsBefore d cs ↔ ∃ t, cs = h ++ d :: t := by
  induction cs generalizing h with
  | nil => simp [headsBefore]
  | cons c cs ih =>
    -- the empty beginning is listed where the text begins with a delimiter
    cases h with
    | nil =>
      by_cases hc : c = d
      · simp [headsBefore, hc]
      · simp [headsBefore, hc]
    | cons x h =>
      have hmap : x :: h ∈ (headsBefore d cs).map (c :: ·) ↔ c = x ∧ h ∈ headsBefore d cs := by
        simp only [List.mem_map, List.cons.injEq]
        constructor
        · rintro ⟨h', hmem, rfl, rfl⟩
          exact ⟨rfl, hmem⟩
        · rintro ⟨rfl, hmem⟩
          exact ⟨h, hmem, rfl, rfl⟩
      have hcons : x :: h ∈ headsBefore d (c :: cs) ↔ x :: h ∈ (headsBefore d cs).map (c :: ·) := by
        by_cases hc : c = d
        · simp [headsBefore, hc]
        · simp [headsBefore, hc]
      rw [hcons, hmap, ih]
      simp

/-- The beginnings of a listed beginning are the ones listed before it. Induction on the text: its
first character stands in front of every later beginning. -/
theorem headsBefore_of_split {d : Char} {cs h : List Char} {before after : List (List Char)}
    (e : headsBefore d cs = before ++ h :: after) : headsBefore d h = before := by
  induction cs generalizing h before after with
  | nil => simp [headsBefore] at e
  | cons c cs ih =>
    -- a split of the beginnings that all start with `c` comes from one of those of `cs`
    have inner : ∀ {before after h}, (headsBefore d cs).map (c :: ·) = before ++ h :: after →
        ∃ h', h = c :: h' ∧ (headsBefore d h').map (c :: ·) = before := by
      intro before after h e
      obtain ⟨l, r, hcs, hl, hr⟩ := List.map_eq_append_iff.mp e
      obtain ⟨h', r', hr', hh, -⟩ := List.map_eq_cons_iff.mp hr
      refine ⟨h', hh.symm, ?_⟩
      rw [ih (hr' ▸ hcs), hl]
    rw [headsBefore] at e
    split at e
    · rename_i hc
      cases before with
      | nil =>
        obtain ⟨rfl, -⟩ := List.cons.inj e
        rfl
      | cons first before =>
        obtain ⟨rfl, erest⟩ := List.cons.inj e
        obtain ⟨h', rfl, hh'⟩ := inner erest
        rw [headsBefore, if_pos hc, hh']
    · rename_i hc
      obtain ⟨h', rfl, hh'⟩ := inner e
      rw [headsBefore, if_neg hc, hh']

/-- What stands before the last delimiter is the last of the listed beginnings. -/
theorem mem_headsBefore_of_cutLast {d : Char} {cs a b : List Char}
    (h : cutLast d cs = some (a, b)) : a ∈ headsBefore d cs :=
  mem_headsBefore_iff.mpr ⟨b, (append_of_cutLast h).1⟩

/-- Behind the last delimiter no beginning is listed. Induction on the text before it. -/
theorem headsBefore_append {d : Char} {a b : List Char} (hb : d ∉ b) :
    headsBefore d (a ++ d :: b) = headsBefore d a ++ [a] := by
  induction a with
  | nil =>
    have hnone : headsBefore d b = [] :=
      List.eq_nil_iff_forall_not_mem.mpr fun h hmem => by
        obtain ⟨t, rfl⟩ := mem_headsBefore_iff.mp hmem
        simp at hb
    simp [headsBefore, hnone]
  | cons c a ih =>
    rw [List.cons_append, headsBefore, headsBefore, ih]
    split <;> simp

theorem pairwise_headsBefore (d : Char) (cs : List Char) :
    (headsBefore d cs).Pairwise fun a b => a.length < b.length := by
  induction cs with
  | nil => exact List.Pairwise.nil
  | cons c cs ih =>
    have hlonger : ((headsBefore d cs).map (c :: ·)).Pairwise fun a b => a.length < b.length := by
      rw [List.pairwise_map]
      exact ih.imp Nat.succ_lt_succ
    rw [headsBefore]
    split
    -- the empty beginning is shorter than those that start with `c`
    · refine List.pairwise_cons.mpr ⟨?_, hlonger⟩
      intro b hb
      obtain ⟨b, -, rfl⟩ := List.mem_map.mp hb
      exact Nat.succ_pos _
    · exact hlonger

/-- The cut is at the first delimiter. Induction on the text before it. -/
theorem cutFirst_append {d : Char} {a b : List Char} (ha : d ∉ a) :
    cutFirst d (a ++ d :: b) = some (a, b) := by
  induction a with
  | nil => exact if_pos rfl
  | cons c a ih =>
    rw [List.mem_cons, not_or] at ha
    rw [List.cons_append, cutFirst, if_neg (Ne.symm ha.1), ih ha.2]
    rfl

/-- Texts that are cut at the first delimiter are the same where their parts are. -/
theorem append_cons_inj {d : Char} {a a' b b' : List Char} (ha : d ∉ a) (ha' : d ∉ a')
    (h : a ++ d :: b = a' ++ d :: b') : a = a' ∧ b = b' := by
  have hcut := congrArg (cutFirst d) h
  rw [cutFirst_append ha, cutFirst_append ha'] at hcut
  simpa using hcut

/-- The cut is at the last delimiter. Induction on the text before it. -/
theorem cutLast_append {d : Char} {a b : List Char} (hb : d ∉ b) :
    cutLast d (a ++ d :: b) = some (a, b) := by
  induction a with
  | nil => rw [List.nil_append, cutLast, cutLast_eq_none_iff.mpr hb]; simp
  | cons c a ih => rw [List.cons_append, cutLast, ih]

end MailServer.Text

namespace MailServer.Mailbox.Path

/-! ## The order of paths -/

theorem lt_iff {p q : Path} : p < q ↔ p.user < q.user ∨ (p.user = q.user ∧ p.name < q.name) :=
  Iff.rfl

instance : IsStrictTotalOrder Path (· < ·) where
  irrefl p h := by
    rcases lt_iff.mp h with h | ⟨-, h⟩
    · exact lt_irrefl _ h
    · exact lt_irrefl _ h
  trans p q r hpq hqr := by
    rw [lt_iff] at *
    rcases hpq with hpq | ⟨hu, hpq⟩
    · rcases hqr with hqr | ⟨hu', -⟩
      · exact Or.inl (lt_trans hpq hqr)
      · exact Or.inl (hu' ▸ hpq)
    · rcases hqr with hqr | ⟨hu', hqr⟩
      · exact Or.inl (hu ▸ hqr)
      · exact Or.inr ⟨hu.trans hu', lt_trans hpq hqr⟩
  trichotomous p q hpq hqp := by
    rw [lt_iff, not_or, not_and] at hpq hqp
    obtain ⟨pu, pn⟩ := p
    obtain ⟨qu, qn⟩ := q
    have hu : pu = qu := le_antisymm (not_lt.mp hqp.1) (not_lt.mp hpq.1)
    have hn : pn = qn := le_antisymm (not_lt.mp (hqp.2 hu.symm)) (not_lt.mp (hpq.2 hu))
    rw [hu, hn]

/-! ## Enclosing mailboxes -/

theorem sibling_name (p : Path) (name : List Char) : (p.sibling name).name.toList = name :=
  String.toList_ofList

/-- A sibling is known by its name. -/
theorem eq_sibling_iff {p q : Path} {name : List Char} :
    q = p.sibling name ↔ q.user = p.user ∧ q.name.toList = name := by
  constructor
  · rintro rfl
    exact ⟨rfl, sibling_name p name⟩
  · rintro ⟨hu, rfl⟩
    obtain ⟨u, n⟩ := q
    simp only [sibling, String.ofList_toList] at hu ⊢
    rw [hu]

/-- An ancestor is a mailbox of the same user whose name goes up to a delimiter. -/
theorem mem_ancestors_iff {p a : Path} {d : Char} :
    a ∈ p.ancestors d ↔ a.user = p.user ∧ ∃ t, p.name.toList = a.name.toList ++ d :: t := by
  rw [ancestors, List.mem_map]
  constructor
  · rintro ⟨h, hmem, rfl⟩
    obtain ⟨t, ht⟩ := Text.mem_headsBefore_iff.mp hmem
    exact ⟨rfl, t, by rw [sibling_name, ht]⟩
  · rintro ⟨hu, t, ht⟩
    exact ⟨a.name.toList, Text.mem_headsBefore_iff.mpr ⟨t, ht⟩, (eq_sibling_iff.mpr ⟨hu, rfl⟩).symm⟩

theorem user_of_mem_ancestors {p a : Path} {d : Char} (h : a ∈ p.ancestors d) :
    a.user = p.user := (mem_ancestors_iff.mp h).1

/-- The name of an ancestor is shorter. -/
theorem length_lt_of_mem_ancestors {p a : Path} {d : Char} (h : a ∈ p.ancestors d) :
    a.name.length < p.name.length := by
  obtain ⟨-, t, ht⟩ := mem_ancestors_iff.mp h
  rw [← String.length_toList, ← String.length_toList, ht, List.length_append, List.length_cons]
  omega

theorem not_mem_ancestors_self (p : Path) (d : Char) : p ∉ p.ancestors d :=
  fun h => lt_irrefl _ (length_lt_of_mem_ancestors h)

/-- The ancestors of an ancestor are the ones listed before it. -/
theorem ancestors_of_split {p a : Path} {d : Char} {before after : List Path}
    (e : p.ancestors d = before ++ a :: after) : a.ancestors d = before := by
  obtain ⟨l, r, hcs, rfl, hr⟩ := List.map_eq_append_iff.mp e
  obtain ⟨h, r', rfl, rfl, -⟩ := List.map_eq_cons_iff.mp hr
  rw [ancestors, sibling_name, Text.headsBefore_of_split hcs]
  rfl

theorem pairwise_ancestors (p : Path) (d : Char) :
    (p.ancestors d).Pairwise fun a b => a.name.length < b.name.length := by
  rw [ancestors, List.pairwise_map]
  refine (Text.pairwise_headsBefore d p.name.toList).imp fun {a b} h => ?_
  show (String.ofList a).length < (String.ofList b).length
  rwa [String.length_ofList, String.length_ofList]

theorem mem_ancestors_of_parent? {p q : Path} {d : Char} (h : p.parent? d = some q) :
    q ∈ p.ancestors d := by
  obtain ⟨⟨front, last⟩, hcut, rfl⟩ := Option.map_eq_some_iff.mp h
  exact List.mem_map_of_mem (Text.mem_headsBefore_of_cutLast hcut)

/-- A name is its last component, or it is the parent's name, a delimiter and its last component. -/
theorem parent?_cases (p : Path) (d : Char) :
    (p.parent? d = none ∧ p.leaf d = p.name) ∨
    ∃ q, p.parent? d = some q ∧ q.user = p.user ∧
      p.name.toList = q.name.toList ++ d :: (p.leaf d).toList := by
  unfold parent? leaf
  cases hcut : Text.cutLast d p.name.toList with
  | none => exact Or.inl ⟨rfl, rfl⟩
  | some cut =>
    obtain ⟨front, last⟩ := cut
    refine Or.inr ⟨p.sibling front, rfl, rfl, ?_⟩
    rw [sibling_name, String.toList_ofList]
    exact (Text.append_of_cutLast hcut).1

/-! ## Mailboxes inside others -/

section Child

variable {p : Path} {leaf : String} {d : Char}

theorem sibling_self (p : Path) : p.sibling p.name.toList = p := (eq_sibling_iff.mpr ⟨rfl, rfl⟩).symm

/-- What encloses a mailbox inside another one is that one and what encloses it. -/
theorem ancestors_child (h : d ∉ leaf.toList) : (p.child leaf d).ancestors d = p.ancestors d ++ [p] := by
  have hparts : (p.child leaf d).ancestors d =
      (Text.headsBefore d (p.name.toList ++ d :: leaf.toList)).map p.sibling := by
    rw [ancestors, child, sibling_name]
    rfl
  rw [hparts, Text.headsBefore_append h, List.map_append, List.map_singleton, sibling_self]
  rfl

theorem parent?_child (h : d ∉ leaf.toList) : (p.child leaf d).parent? d = some p := by
  rw [parent?, child, sibling_name, Text.cutLast_append h, Option.map_some]
  exact congrArg some (sibling_self p)

theorem leaf_child (h : d ∉ leaf.toList) : (p.child leaf d).leaf d = leaf := by
  rw [Path.leaf, child, sibling_name, Text.cutLast_append h]
  exact String.ofList_toList

/-- Nothing encloses a mailbox whose name has no delimiter. -/
theorem ancestors_eq_nil (h : d ∉ p.name.toList) : p.ancestors d = [] := by
  refine List.eq_nil_iff_forall_not_mem.mpr fun a ha => ?_
  obtain ⟨-, t, ht⟩ := mem_ancestors_iff.mp ha
  rw [ht] at h
  simp at h

end Child

end MailServer.Mailbox.Path
