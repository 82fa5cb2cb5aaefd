import Mathlib.Data.List.Nodup
import MailServer.Proofs.Store

/-!
# What a creation adds

A creation adds the mailboxes that are missing on the way to its path, the outermost first, and then the
path itself. So it comes down to adding a list of mailboxes that are not there, one after the other.

* `next_add`, `numbered_cons` — counting on from a number.
* `entries_foldl_add`, `entryAt?_foldl_add` — the store after mailboxes have been added one by one.
* `foldl_ensure_eq`, `grown_eq` — ensuring mailboxes adds those that are missing.
* `Growth` — all that a creation changes.
* `create_exact` — which creations fail, and what the others do.
-/

namespace MailServer.Mailbox.Store

/-! ## Counting on -/

theorem next_add (n : UInt32) (k : Nat) : n + 1 + UInt32.ofNat k = n + UInt32.ofNat (k + 1) := by
  rw [Nat.add_comm k 1, UInt32.ofNat_add, ← UInt32.add_assoc]
  rfl

theorem numbered_cons {α β : Type} (f : α → UInt32 → β) (n : UInt32) (a : α) (l : List α) :
    ((a :: l).zipIdx 1).map (fun m => f m.1 (n + UInt32.ofNat m.2)) =
      f a (n + 1) :: (l.zipIdx 1).map fun m => f m.1 (n + 1 + UInt32.ofNat m.2) := by
  have hshift : l.zipIdx (1 + 1) = _ := List.zipIdx_succ
  rw [List.zipIdx_cons, List.map_cons, hshift, List.map_map]
  refine congrArg (List.cons _) (List.map_congr_left fun m _ => ?_)
  rw [next_add]
  rfl

theorem toNat_add_ofNat {n : UInt32} {k : Nat} (h : n.toNat + k < 2 ^ 32) :
    (n + UInt32.ofNat k).toNat = n.toNat + k := by
  have hk : k < 2 ^ 32 := by omega
  rw [UInt32.toNat_add, UInt32.toNat_ofNat_of_lt' hk]
  exact Nat.mod_eq_of_lt h

/-! ## Adding mailboxes one after the other -/

section Add

variable {s : Store} {ps : List Path} {p : Path}

theorem lastId_foldl_add (s : Store) (ps : List Path) :
    (ps.foldl add s).lastId = s.lastId + UInt32.ofNat ps.length := by
  induction ps generalizing s with
  | nil => exact (UInt32.add_zero s.lastId).symm
  | cons p ps ih => rw [List.foldl_cons, ih, lastId_add, next_add, List.length_cons]

theorem contains_foldl_add (s : Store) (ps : List Path) (q : Path) :
    (ps.foldl add s).contains q = true ↔ s.contains q = true ∨ q ∈ ps := by
  induction ps generalizing s with
  | nil => simp
  | cons p ps ih =>
    rw [List.foldl_cons, ih, contains_add, List.mem_cons]
    tauto

theorem entryAt?_foldl_add_of_not_mem (h : p ∉ ps) : (ps.foldl add s).entryAt? p = s.entryAt? p := by
  induction ps generalizing s with
  | nil => rfl
  | cons q ps ih =>
    rw [List.mem_cons, not_or] at h
    rw [List.foldl_cons, ih h.2, entryAt?_add, if_neg (Ne.symm h.1)]

/-- The mailboxes that are added have the numbers that come next, in their order. Induction on them; what
is added later is another path, and leaves the entry as it is. -/
theorem entryAt?_foldl_add (h : ps.Nodup) {k : Nat} (hk : ps[k]? = some p) :
    (ps.foldl add s).entryAt? p = some ⟨⟨s.lastId + UInt32.ofNat (k + 1)⟩, 0, 1⟩ := by
  induction ps generalizing s k with
  | nil => cases hk
  | cons q ps ih =>
    obtain ⟨hq, hps⟩ := List.nodup_cons.mp h
    rw [List.foldl_cons]
    cases k with
    | zero =>
      obtain rfl : q = p := Option.some.inj hk
      rw [entryAt?_foldl_add_of_not_mem hq, entryAt?_add, if_pos rfl]
      rfl
    | succ k =>
      rw [ih hps hk, lastId_add, next_add]

theorem entries_foldl_add (h : ps.Nodup) (hnew : ∀ p ∈ ps, ¬ s.contains p = true) :
    (ps.foldl add s).entries.Perm
      (s.entries ++ (ps.zipIdx 1).map fun m => (m.1, ⟨⟨s.lastId + UInt32.ofNat m.2⟩, 0, 1⟩)) := by
  induction ps generalizing s with
  | nil => exact (List.append_nil s.entries).symm ▸ List.Perm.refl _
  | cons p ps ih =>
    obtain ⟨hp, hps⟩ := List.nodup_cons.mp h
    have hlater : ∀ q ∈ ps, ¬ (s.add p).contains q = true := by
      intro q hq hthere
      rcases (contains_add s p q).mp hthere with rfl | hthere
      · exact hp hq
      · exact hnew q (List.mem_cons_of_mem _ hq) hthere
    have hadded := Keyed.insert_perm_cons (entryAt?_of_not_contains (hnew p List.mem_cons_self))
      (⟨⟨s.lastId + 1⟩, 0, 1⟩ : Entry)
    rw [numbered_cons (fun p n => (p, (⟨⟨n⟩, 0, 1⟩ : Entry))), ← lastId_add s p]
    exact (ih hps hlater).trans ((hadded.append_right _).trans List.perm_middle.symm)

end Add

/-! ## Ensuring mailboxes -/

/-- To ensure mailboxes is to add the missing ones. Induction on the mailboxes; one that has just been
added is not listed again, so it does not matter which of the two stores is asked. -/
theorem foldl_ensure_eq {s : Store} {ps : List Path} (h : ps.Nodup) :
    ps.foldl ensure s = (ps.filter fun p => !s.contains p).foldl add s := by
  induction ps generalizing s with
  | nil => rfl
  | cons p ps ih =>
    obtain ⟨hp, hps⟩ := List.nodup_cons.mp h
    rw [List.foldl_cons, ih hps, ensure]
    split
    · rename_i hthere
      rw [List.filter_cons_of_neg (by simp [hthere])]
    · rename_i hmissing
      have hsame : (ps.filter fun q => !(s.add p).contains q) = ps.filter fun q => !s.contains q := by
        refine List.filter_congr fun q hq => ?_
        have hne : q ≠ p := fun heq => hp (heq ▸ hq)
        rw [Bool.not_inj_iff, Bool.eq_iff_iff, contains_add, or_iff_right hne]
      rw [List.filter_cons_of_pos (by simp [hmissing]), List.foldl_cons, hsame]

/-- What a creation of the path adds: the ancestors that are missing, and the path. -/
def missing (s : Store) (p : Path) : List Path :=
  (p.ancestors s.delimiter).filter (fun a => !s.contains a) ++ [p]

theorem nodup_of_lengths {ps : List Path} (h : ps.Pairwise fun q r => q.name.length < r.name.length) :
    ps.Nodup := by
  refine List.Pairwise.imp ?_ h
  rintro q r hlt rfl
  exact lt_irrefl _ hlt

section Missing

variable {s : Store} {p : Path}

theorem pairwise_missing (s : Store) (p : Path) :
    (s.missing p).Pairwise fun q r => q.name.length < r.name.length := by
  refine List.pairwise_append.mpr ⟨(p.pairwise_ancestors s.delimiter).filter _, List.pairwise_singleton _ _, ?_⟩
  intro a ha q hq
  rw [List.mem_singleton.mp hq]
  exact Path.length_lt_of_mem_ancestors (List.mem_filter.mp ha).1

theorem nodup_missing (s : Store) (p : Path) : (s.missing p).Nodup := nodup_of_lengths (pairwise_missing s p)

theorem mem_missing_iff (h : ¬ s.contains p = true) (q : Path) :
    q ∈ s.missing p ↔ (q = p ∨ q ∈ p.ancestors s.delimiter) ∧ ¬ s.contains q = true := by
  rw [missing, List.mem_append, List.mem_filter, List.mem_singleton]
  constructor
  · rintro (⟨hancestor, hmissing⟩ | rfl)
    · exact ⟨Or.inr hancestor, by simpa using hmissing⟩
    · exact ⟨Or.inl rfl, h⟩
  · rintro ⟨rfl | hancestor, hmissing⟩
    · exact Or.inr rfl
    · exact Or.inl ⟨hancestor, by simpa using hmissing⟩

theorem grown_eq (s : Store) (p : Path) : s.grown p = (s.missing p).foldl add s := by
  rw [grown, missing, List.foldl_append, foldl_ensure_eq (nodup_of_lengths (p.pairwise_ancestors s.delimiter))]
  rfl

end Missing

/-! ## Creating a mailbox -/

/-- A store that has got the mailboxes `made` in a creation of the path, and nothing else. -/
structure Growth (s : Store) (p : Path) (made : List Path) (t : Store) : Prop where
  mem_made_iff : ∀ q, q ∈ made ↔ (q = p ∨ q ∈ p.ancestors s.delimiter) ∧ ¬ s.contains q = true
  shortest_first : made.Pairwise fun q r => q.name.length < r.name.length
  contains_iff : ∀ q, t.contains q = true ↔ s.contains q = true ∨ q ∈ made
  kept : ∀ q e, s.entryAt? q = some e → t.entryAt? q = some e
  entries : t.entries.Perm
    (s.entries ++ (made.zipIdx 1).map fun m => (m.1, ⟨⟨s.lastId + UInt32.ofNat m.2⟩, 0, 1⟩))
  settings : t.limit = s.limit ∧ t.delimiter = s.delimiter

theorem growth_grown {s : Store} {p : Path} (h : ¬ s.contains p = true) :
    Growth s p (s.missing p) (s.grown p) := by
  have hmissing := mem_missing_iff h
  refine ⟨hmissing, pairwise_missing s p, ?_, ?_, ?_, (keeps_grown h).limit, (keeps_grown h).delimiter⟩
  · rw [grown_eq]
    exact contains_foldl_add s _
  · intro q e he
    have hnot : q ∉ s.missing p := fun hq => ((hmissing q).mp hq).2 (contains_iff.mpr ⟨e, he⟩)
    rw [grown_eq, entryAt?_foldl_add_of_not_mem hnot, he]
  · rw [grown_eq]
    exact entries_foldl_add (nodup_missing s p) fun q hq => ((hmissing q).mp hq).2

/-- **The effect of a creation**, in every store and for every path. A name that is too long is refused,
and else a path that is there; the store is then as it was. In all other cases the creation succeeds. It
adds the path with those of its ancestors that were missing, and leaves every other mailbox as it is. As
long as numbers are left, the new mailboxes are empty and have the numbers that come next, a shorter name
before a longer one, so that the path has the last of them, which is the answer. -/
theorem create_exact (s : Store) (p : Path) :
    (∀ cause, (s.create p).1 = .error cause ↔
      (s.limit < p.name.length ∧ cause = .nameTooLong p.name s.limit) ∨
      (¬ s.limit < p.name.length ∧ s.contains p = true ∧ cause = .alreadyExists p.render)) ∧
    (∀ cause, (s.create p).1 = .error cause → (s.create p).2 = s) ∧
    (¬ s.limit < p.name.length → ¬ s.contains p = true → ∃ id t,
      s.create p = (.ok id, t) ∧ Growth s p (s.missing p) t ∧
      (s.lastId.toNat + (s.missing p).length < 2 ^ 32 →
        (∀ k q, (s.missing p)[k]? = some q → ∃ i, t.entryAt? q = some ⟨i, 0, 1⟩ ∧
          i.number.toNat = s.lastId.toNat + (k + 1)) ∧
        t.lastId.toNat = s.lastId.toNat + (s.missing p).length ∧
        id.number.toNat = s.lastId.toNat + (s.missing p).length ∧ t.entryAt? p = some ⟨id, 0, 1⟩)) := by
  rcases create_cases s p with ⟨hlong, hc⟩ | ⟨hshort, hthere, hc⟩ | ⟨hshort, hnew, hc⟩
  · rw [hc]
    refine ⟨fun cause => ⟨fun h => ?_, ?_⟩, fun _ _ => rfl, fun hshort => absurd hlong hshort⟩
    · exact Or.inl ⟨hlong, (Except.error.inj h).symm⟩
    · rintro (⟨-, rfl⟩ | ⟨hshort, -⟩)
      · rfl
      · exact absurd hlong hshort
  · rw [hc]
    refine ⟨fun cause => ⟨fun h => ?_, ?_⟩, fun _ _ => rfl, fun _ hnew => absurd hthere hnew⟩
    · exact Or.inr ⟨not_lt.mpr hshort, hthere, (Except.error.inj h).symm⟩
    · rintro (⟨hlong, -⟩ | ⟨-, -, rfl⟩)
      · exact absurd hshort (not_le.mpr hlong)
      · rfl
  · rw [hc]
    refine ⟨fun cause => iff_of_false nofun ?_, nofun,
      fun _ _ => ⟨_, _, rfl, growth_grown hnew, fun hfew => ?_⟩⟩
    · rintro (⟨hlong, -⟩ | ⟨-, hthere, -⟩)
      · exact not_lt.mpr hshort hlong
      · exact hnew hthere
    · have hlast : (s.grown p).lastId = s.lastId + UInt32.ofNat (s.missing p).length := by
        rw [grown_eq, lastId_foldl_add]
      have hcounted := toNat_add_ofNat hfew
      refine ⟨?_, hlast ▸ hcounted, hlast ▸ hcounted, ?_⟩
      · intro k q hk
        have hlt : k < (s.missing p).length := (List.getElem?_eq_some_iff.mp hk).1
        refine ⟨_, grown_eq s p ▸ entryAt?_foldl_add (nodup_missing s p) hk, ?_⟩
        exact toNat_add_ofNat (by omega)
      · -- the path is added last, to the store with all of its ancestors
        rw [grown, entryAt?_add, if_pos rfl, lastId_add]

/-- A path with an ancestor that is there and two that are missing, one of them with an empty component. -/
theorem create_exact_below_existing :
    let s := ((((empty 16 '.').create ⟨"ann", "Work"⟩).2).create ⟨"bob", "Work.Q1"⟩).2
    let p : Path := ⟨"ann", "Work..Plans"⟩
    ¬ s.limit < p.name.length ∧ ¬ s.contains p = true ∧
    s.missing p = [⟨"ann", "Work."⟩, p] ∧ s.lastId.toNat + (s.missing p).length < 2 ^ 32 ∧
    ∃ id t, s.create p = (.ok id, t) ∧ id.number.toNat = 5 ∧ t.entryAt? p = some ⟨id, 0, 1⟩ ∧
      (∃ i, t.entryAt? ⟨"ann", "Work."⟩ = some ⟨i, 0, 1⟩ ∧ i.number.toNat = 4) ∧
      t.entryAt? ⟨"ann", "Work"⟩ = s.entryAt? ⟨"ann", "Work"⟩ := by
  intro s p
  have hshort : ¬ s.limit < p.name.length := by decide
  have hnew : ¬ s.contains p = true := by decide
  have hmissing : s.missing p = [⟨"ann", "Work."⟩, p] := by decide
  have hlast : s.lastId.toNat = 3 := by decide
  have hfew : s.lastId.toNat + (s.missing p).length < 2 ^ 32 := by rw [hlast, hmissing]; decide
  obtain ⟨id, t, hcreate, hgrowth, hnumbered⟩ := (create_exact s p).2.2 hshort hnew
  obtain ⟨heach, -, hid, hentry⟩ := hnumbered hfew
  rw [hmissing, hlast] at heach hid
  have hwork : s.entryAt? ⟨"ann", "Work"⟩ = some ⟨⟨1⟩, 0, 1⟩ := by decide
  exact ⟨hshort, hnew, hmissing, hfew, id, t, hcreate, hid, hentry, heach 0 _ rfl,
    (hgrowth.kept _ _ hwork).trans hwork.symm⟩

end MailServer.Mailbox.Store
