import Mathlib.Data.List.Perm.Basic
import MailServer.Mailbox.Store
import MailServer.Proofs.Keyed
import MailServer.Proofs.Path

/-!
# The store — what an operation does and what it keeps

First what each operation does to the entry of a path; later proofs cite these equations and do
not open the operations again. Then the two relations between a store and a later one, and the
invariant.

* `create_cases`, `deliver_cases` — everything a creation and a delivery can do.
* `Keeps s t` — every mailbox of `s` is in `t` under its number.
* `Sound` — the invariant of the store. Numbers are 32 bits wide and are counted modulo `2 ^ 32`
  here, so that `Sound` holds without any bound on the number of mailboxes.
* `Sound.create`, `Sound.deliver` — the operations keep it.
-/

namespace MailServer.Mailbox

/-- An entry with one message more. -/
def Entry.received (e : Entry) : Entry :=
  { e with messages := e.messages + 1, uidNext := e.uidNext + 1 }

namespace Store

/-! ## Adding one mailbox -/

@[simp] theorem limit_add (s : Store) (p : Path) : (s.add p).limit = s.limit := rfl

@[simp] theorem delimiter_add (s : Store) (p : Path) : (s.add p).delimiter = s.delimiter := rfl

@[simp] theorem lastId_add (s : Store) (p : Path) : (s.add p).lastId = s.lastId + 1 := rfl

theorem entryAt?_add (s : Store) (p q : Path) :
    (s.add p).entryAt? q = if p = q then some ⟨⟨s.lastId + 1⟩, 0, 1⟩ else s.entryAt? q :=
  Keyed.find?_insert p q _ s.entries

theorem contains_iff {s : Store} {p : Path} : s.contains p = true ↔ ∃ e, s.entryAt? p = some e :=
  Option.isSome_iff_exists

theorem entryAt?_of_not_contains {s : Store} {p : Path} (h : ¬ s.contains p = true) :
    s.entryAt? p = none := by
  rwa [contains, Option.not_isSome_iff_eq_none] at h

@[simp] theorem contains_add (s : Store) (p q : Path) :
    (s.add p).contains q = true ↔ q = p ∨ s.contains q = true := by
  rw [contains, entryAt?_add]
  split
  · rename_i h
    simp [h]
  · rename_i h
    simp [contains, Ne.symm h]

/-- A mailbox that is added once counts once. -/
theorem length_entries_add {s : Store} {p : Path} (h : ¬ s.contains p = true) :
    (s.add p).entries.length = s.entries.length + 1 :=
  (Keyed.insert_perm_cons (entryAt?_of_not_contains h) _).length_eq

/-! ## Adding the ones that are missing -/

@[simp] theorem limit_ensure (s : Store) (p : Path) : (s.ensure p).limit = s.limit := by
  unfold ensure
  split <;> rfl

@[simp] theorem delimiter_ensure (s : Store) (p : Path) : (s.ensure p).delimiter = s.delimiter := by
  unfold ensure
  split <;> rfl

@[simp] theorem contains_ensure (s : Store) (p q : Path) :
    (s.ensure p).contains q = true ↔ q = p ∨ s.contains q = true := by
  unfold ensure
  split
  · rename_i h
    exact ⟨Or.inr, fun hq => hq.elim (fun hq => hq ▸ h) id⟩
  · exact contains_add s p q

@[simp] theorem limit_foldl_ensure (s : Store) (ps : List Path) :
    (ps.foldl ensure s).limit = s.limit := by
  induction ps generalizing s with
  | nil => rfl
  | cons p ps ih => rw [List.foldl_cons, ih, limit_ensure]

@[simp] theorem delimiter_foldl_ensure (s : Store) (ps : List Path) :
    (ps.foldl ensure s).delimiter = s.delimiter := by
  induction ps generalizing s with
  | nil => rfl
  | cons p ps ih => rw [List.foldl_cons, ih, delimiter_ensure]

@[simp] theorem contains_foldl_ensure (s : Store) (ps : List Path) (q : Path) :
    (ps.foldl ensure s).contains q = true ↔ q ∈ ps ∨ s.contains q = true := by
  induction ps generalizing s with
  | nil => simp
  | cons p ps ih =>
    rw [List.foldl_cons, ih, contains_ensure, List.mem_cons]
    tauto

/-! ## Creating a mailbox -/

/-- The store after a creation that succeeds: the ancestors first, then the mailbox itself. -/
def grown (s : Store) (p : Path) : Store := ((p.ancestors s.delimiter).foldl ensure s).add p

/-- Where the mailboxes are there, ensuring them does nothing. -/
theorem foldl_ensure_of_contains {s : Store} {ps : List Path} (h : ∀ p ∈ ps, s.contains p = true) :
    ps.foldl ensure s = s := by
  induction ps with
  | nil => rfl
  | cons p ps ih =>
    rw [List.foldl_cons, ensure, if_pos (h p List.mem_cons_self),
      ih fun p hp => h p (List.mem_cons_of_mem _ hp)]

/-- A mailbox whose ancestors are there is added alone. -/
theorem grown_of_enclosed {s : Store} {p : Path} (h : ∀ a ∈ p.ancestors s.delimiter, s.contains a = true) :
    s.grown p = s.add p := by
  rw [grown, foldl_ensure_of_contains h]

@[simp] theorem contains_grown (s : Store) (p q : Path) :
    (s.grown p).contains q = true ↔ q = p ∨ q ∈ p.ancestors s.delimiter ∨ s.contains q = true := by
  rw [grown, contains_add, contains_foldl_ensure]

/-- A creation fails on a name that is too long or that is there, and changes nothing then; else it
grows the store. -/
theorem create_cases (s : Store) (p : Path) :
    (s.limit < p.name.length ∧ s.create p = (.error (.nameTooLong p.name s.limit), s)) ∨
    (p.name.length ≤ s.limit ∧ s.contains p = true ∧
      s.create p = (.error (.alreadyExists p.render), s)) ∨
    (p.name.length ≤ s.limit ∧ ¬ s.contains p = true ∧
      s.create p = (.ok ⟨(s.grown p).lastId⟩, s.grown p)) := by
  unfold create
  split
  · rename_i hlong
    exact Or.inl ⟨hlong, rfl⟩
  · rename_i hlong
    right
    split
    · rename_i hthere
      exact Or.inl ⟨not_lt.mp hlong, hthere, rfl⟩
    · rename_i hthere
      exact Or.inr ⟨not_lt.mp hlong, hthere, rfl⟩

/-- Creating a mailbox that is there changes nothing. -/
theorem create_of_contains {s : Store} {p : Path} (h : s.contains p = true) : (s.create p).2 = s := by
  rcases create_cases s p with ⟨-, hc⟩ | ⟨-, -, hc⟩ | ⟨-, hnew, -⟩
  · rw [hc]
  · rw [hc]
  · exact absurd h hnew

/-- So does creating one whose name is too long. -/
theorem create_of_long {s : Store} {p : Path} (h : s.limit < p.name.length) : (s.create p).2 = s := by
  rw [create, if_pos h]

/-- Creating a mailbox whose name is not too long leaves it there. -/
theorem contains_create {s : Store} {p : Path} (h : p.name.length ≤ s.limit) :
    (s.create p).2.contains p = true := by
  rcases create_cases s p with ⟨hlong, -⟩ | ⟨-, hthere, hc⟩ | ⟨-, -, hc⟩
  · exact absurd h (not_le.mpr hlong)
  · rw [hc]
    exact hthere
  · rw [hc, contains_grown]
    exact Or.inl rfl

/-! ## Delivering a message -/

/-- A delivery fails where there is no mailbox, and changes nothing then; else the entry of the
mailbox is replaced. -/
theorem deliver_cases (s : Store) (p : Path) :
    (s.entryAt? p = none ∧ s.deliver p = (.error (.notFound p.render), s)) ∨
    (∃ e, s.entryAt? p = some e ∧ s.deliver p =
      (.ok e.received.messages, { s with entries := Keyed.insert p e.received s.entries })) := by
  unfold deliver
  cases h : s.entryAt? p with
  | none => exact Or.inl ⟨rfl, rfl⟩
  | some e => exact Or.inr ⟨e, rfl, rfl⟩

/-! ## A store and a later one -/

/-- The later store has the mailboxes of the earlier one, each under its number. -/
structure Keeps (s t : Store) : Prop where
  limit : t.limit = s.limit
  delimiter : t.delimiter = s.delimiter
  entry : ∀ p e, s.entryAt? p = some e → ∃ e', t.entryAt? p = some e' ∧ e'.id = e.id

theorem Keeps.refl (s : Store) : Keeps s s := ⟨rfl, rfl, fun _ e h => ⟨e, h, rfl⟩⟩

theorem Keeps.trans {s t u : Store} (hst : Keeps s t) (htu : Keeps t u) : Keeps s u where
  limit := htu.limit.trans hst.limit
  delimiter := htu.delimiter.trans hst.delimiter
  entry p e h := by
    obtain ⟨e', h', hid'⟩ := hst.entry p e h
    obtain ⟨e'', h'', hid''⟩ := htu.entry p e' h'
    exact ⟨e'', h'', hid''.trans hid'⟩

theorem Keeps.contains {s t : Store} (h : Keeps s t) {p : Path} (hp : s.contains p = true) :
    t.contains p = true := by
  obtain ⟨e, he⟩ := contains_iff.mp hp
  obtain ⟨e', he', -⟩ := h.entry p e he
  exact contains_iff.mpr ⟨e', he'⟩

/-- Adding a mailbox that is not there leaves every entry as it is. -/
theorem keeps_add {s : Store} {p : Path} (h : ¬ s.contains p = true) : Keeps s (s.add p) where
  limit := rfl
  delimiter := rfl
  entry q e hq := by
    have hne : p ≠ q := by
      rintro rfl
      exact h (contains_iff.mpr ⟨e, hq⟩)
    exact ⟨e, by rw [entryAt?_add, if_neg hne, hq], rfl⟩

theorem keeps_ensure (s : Store) (p : Path) : Keeps s (s.ensure p) := by
  unfold ensure
  split
  · exact Keeps.refl s
  · rename_i h
    exact keeps_add h

theorem keeps_foldl_ensure (s : Store) (ps : List Path) : Keeps s (ps.foldl ensure s) := by
  induction ps generalizing s with
  | nil => exact Keeps.refl s
  | cons p ps ih => exact (keeps_ensure s p).trans (ih _)

/-- The mailbox is still missing when its ancestors are there: it is none of them. -/
theorem not_contains_ancestors_ensured {s : Store} {p : Path} (h : ¬ s.contains p = true) :
    ¬ ((p.ancestors s.delimiter).foldl ensure s).contains p = true := by
  rw [contains_foldl_ensure, not_or]
  exact ⟨p.not_mem_ancestors_self s.delimiter, h⟩

theorem keeps_grown {s : Store} {p : Path} (h : ¬ s.contains p = true) : Keeps s (s.grown p) :=
  (keeps_foldl_ensure s _).trans (keeps_add (not_contains_ancestors_ensured h))

theorem keeps_create (s : Store) (p : Path) : Keeps s (s.create p).2 := by
  rcases create_cases s p with ⟨-, h⟩ | ⟨-, -, h⟩ | ⟨-, hnew, h⟩
  · rw [h]
    exact Keeps.refl s
  · rw [h]
    exact Keeps.refl s
  · rw [h]
    exact keeps_grown hnew

theorem entryAt?_deliver (s : Store) (p q : Path) :
    (s.deliver p).2.entryAt? q = if p = q then (s.entryAt? q).map Entry.received else s.entryAt? q := by
  rcases deliver_cases s p with ⟨hnone, h⟩ | ⟨e, he, h⟩
  · rw [h]
    split
    · rename_i hpq
      rw [← hpq, hnone]
      rfl
    · rfl
  · rw [h, entryAt?, Keyed.find?_insert]
    split
    · rename_i hpq
      rw [← hpq, he]
      rfl
    · rfl

theorem keeps_deliver (s : Store) (p : Path) : Keeps s (s.deliver p).2 where
  limit := by
    rcases deliver_cases s p with ⟨-, h⟩ | ⟨e, -, h⟩ <;> rw [h]
  delimiter := by
    rcases deliver_cases s p with ⟨-, h⟩ | ⟨e, -, h⟩ <;> rw [h]
  entry q e hq := by
    rw [entryAt?_deliver]
    split
    · exact ⟨e.received, by rw [hq]; rfl, rfl⟩
    · exact ⟨e, hq, rfl⟩

@[simp] theorem contains_deliver (s : Store) (p q : Path) :
    (s.deliver p).2.contains q = s.contains q := by
  rw [contains, contains, entryAt?_deliver]
  split
  · exact Option.isSome_map
  · rfl

/-! ## The invariant -/

/-- What a store keeps to in every state. The numbers of the mailboxes are those given out so far,
each once; they are counted modulo `2 ^ 32`, as they are given out. -/
structure Sound (s : Store) : Prop where
  sorted : Keyed.Sorted s.entries
  last : s.lastId = UInt32.ofNat s.entries.length
  ids : (s.entries.map (·.2.id.number)).Perm ((List.range' 1 s.entries.length).map UInt32.ofNat)
  enclosed : ∀ p, s.contains p = true → ∀ a ∈ p.ancestors s.delimiter, s.contains a = true
  short : ∀ p, s.contains p = true → p.name.length ≤ s.limit
  counted : ∀ p e, s.entryAt? p = some e → e.uidNext = e.messages + 1

theorem Sound.empty (limit : Nat) (d : Char) : Sound (Store.empty limit d) where
  sorted := List.Pairwise.nil
  last := rfl
  ids := List.Perm.refl _
  enclosed _ h := by cases h
  short _ h := by cases h
  counted _ _ h := by cases h

/-- A mailbox may be added when it is new and short enough and its ancestors are there. -/
theorem Sound.add {s : Store} (h : Sound s) {p : Path} (hnew : ¬ s.contains p = true)
    (hshort : p.name.length ≤ s.limit)
    (henclosed : ∀ a ∈ p.ancestors s.delimiter, s.contains a = true) : Sound (s.add p) where
  sorted := h.sorted.insert p _
  last := by
    rw [lastId_add, h.last, length_entries_add hnew, UInt32.ofNat_add]
    rfl
  ids := by
    -- wherever the entry is put, its number comes next after those given out
    have hperm := (Keyed.insert_perm_cons (entryAt?_of_not_contains hnew)
      ⟨⟨s.lastId + 1⟩, 0, 1⟩).map (·.2.id.number)
    have hlast : s.lastId + 1 = UInt32.ofNat (1 + s.entries.length) := by
      rw [h.last, Nat.add_comm, UInt32.ofNat_add]
      rfl
    rw [length_entries_add hnew, List.range'_1_concat, List.map_append, List.map_singleton, ← hlast]
    exact hperm.trans ((h.ids.cons _).trans (List.perm_append_singleton _ _).symm)
  enclosed q hq a ha := by
    rw [delimiter_add] at ha
    rw [contains_add] at hq ⊢
    rcases hq with rfl | hq
    · exact Or.inr (henclosed a ha)
    · exact Or.inr (h.enclosed q hq a ha)
  short q hq := by
    rcases (contains_add s p q).mp hq with rfl | hq
    · exact hshort
    · exact h.short q hq
  counted q e hq := by
    rw [entryAt?_add] at hq
    split at hq
    · cases hq
      rfl
    · exact h.counted q e hq

theorem Sound.ensure {s : Store} (h : Sound s) {p : Path} (hshort : p.name.length ≤ s.limit)
    (henclosed : ∀ a ∈ p.ancestors s.delimiter, s.contains a = true) : Sound (s.ensure p) := by
  rw [Store.ensure]
  split
  · exact h
  · rename_i hnew
    exact h.add hnew hshort henclosed

/-- Mailboxes may be ensured one after the other when each finds its ancestors in the store or
among those before it. Induction on the list. -/
theorem Sound.foldl_ensure {s : Store} (h : Sound s) {ps : List Path}
    (hshort : ∀ p ∈ ps, p.name.length ≤ s.limit)
    (henclosed : ∀ before p after, ps = before ++ p :: after →
      ∀ a ∈ p.ancestors s.delimiter, a ∈ before ∨ s.contains a = true) :
    Sound (ps.foldl Store.ensure s) := by
  induction ps generalizing s with
  | nil => exact h
  | cons p ps ih =>
    -- the first of the paths finds its ancestors in the store, as there is none before it
    have hp : Sound (s.ensure p) := by
      refine h.ensure (hshort p List.mem_cons_self) ?_
      intro a ha
      exact (henclosed [] p ps rfl a ha).resolve_left List.not_mem_nil
    refine ih hp ?_ ?_
    · intro q hq
      rw [limit_ensure]
      exact hshort q (List.mem_cons_of_mem _ hq)
    · intro before q after hsplit a ha
      rw [delimiter_ensure] at ha
      rw [contains_ensure]
      rcases henclosed (p :: before) q after (by rw [hsplit, List.cons_append]) a ha with hmem | hthere
      · rcases List.mem_cons.mp hmem with rfl | hmem
        · exact Or.inr (Or.inl rfl)
        · exact Or.inl hmem
      · exact Or.inr (Or.inr hthere)

/-- The ancestors of a path are ensured outermost first, so each finds its own in the store. -/
theorem Sound.grown {s : Store} (h : Sound s) {p : Path} (hshort : p.name.length ≤ s.limit)
    (hnew : ¬ s.contains p = true) : Sound (s.grown p) := by
  have hensured : Sound ((p.ancestors s.delimiter).foldl Store.ensure s) := by
    refine h.foldl_ensure ?_ ?_
    · intro a ha
      exact (Path.length_lt_of_mem_ancestors ha).le.trans hshort
    · intro before a after hsplit x hx
      rw [Path.ancestors_of_split hsplit] at hx
      exact Or.inl hx
  -- now the path itself, which is longer than every ancestor
  refine hensured.add (not_contains_ancestors_ensured hnew) ?_ ?_
  · rwa [limit_foldl_ensure]
  · intro a ha
    rw [delimiter_foldl_ensure] at ha
    rw [contains_foldl_ensure]
    exact Or.inl ha

theorem Sound.create {s : Store} (h : Sound s) (p : Path) : Sound (s.create p).2 := by
  rcases create_cases s p with ⟨-, hc⟩ | ⟨-, -, hc⟩ | ⟨hshort, hnew, hc⟩
  · rwa [hc]
  · rwa [hc]
  · rw [hc]
    exact h.grown hshort hnew

/-- A delivery replaces an entry by one of the same number. -/
theorem Sound.deliver {s : Store} (h : Sound s) (p : Path) : Sound (s.deliver p).2 := by
  rcases deliver_cases s p with ⟨-, hd⟩ | ⟨e, he, hd⟩
  · rwa [hd]
  · have hcontains : ∀ q, (s.deliver p).2.contains q = s.contains q := contains_deliver s p
    have hids : (Keyed.insert p e.received s.entries).map (·.2.id.number)
        = s.entries.map (·.2.id.number) := Keyed.map_insert_of_find? h.sorted he _ rfl
    have hlength : (Keyed.insert p e.received s.entries).length = s.entries.length := by
      simpa using congrArg List.length hids
    rw [hd] at hcontains ⊢
    refine ⟨h.sorted.insert p _, ?_, ?_, ?_, ?_, ?_⟩
    · exact h.last.trans (congrArg UInt32.ofNat hlength.symm)
    · exact hids.symm ▸ hlength.symm ▸ h.ids
    · intro q hq a ha
      rw [hcontains] at hq ⊢
      exact h.enclosed q hq a ha
    · intro q hq
      rw [hcontains] at hq
      exact h.short q hq
    · intro q x hx
      have hentry := entryAt?_deliver s p q
      rw [hd, hx] at hentry
      split at hentry
      · obtain ⟨y, hy, rfl⟩ := Option.map_eq_some_iff.mp hentry.symm
        rw [Entry.received, h.counted q y hy]
      · exact h.counted q x hentry.symm

/-! ## Listing -/

/-- A listed mailbox is one of the entries, and its user's. -/
theorem mem_list_iff {s : Store} {user : String} {m : Listing} :
    m ∈ s.list user ↔ ∃ e, (m.path, e) ∈ s.entries ∧ m.path.user = user ∧
      m = ⟨e.id, m.path, e.messages⟩ := by
  rw [list, List.mem_map]
  constructor
  · rintro ⟨⟨p, e⟩, hmem, rfl⟩
    obtain ⟨hmem, huser⟩ := List.mem_filter.mp hmem
    exact ⟨e, hmem, beq_iff_eq.mp huser, rfl⟩
  · rintro ⟨e, hmem, huser, hm⟩
    exact ⟨(m.path, e), List.mem_filter.mpr ⟨hmem, beq_iff_eq.mpr huser⟩, hm.symm⟩

theorem contains_of_mem_list {s : Store} {user : String} {m : Listing} (h : m ∈ s.list user) :
    s.contains m.path = true := by
  obtain ⟨e, hmem, -, -⟩ := mem_list_iff.mp h
  cases hfind : s.entryAt? m.path with
  | none => exact absurd (List.mem_map_of_mem hmem) (Keyed.find?_eq_none_iff.mp hfind)
  | some e => exact contains_iff.mpr ⟨e, hfind⟩

/-- In a sound store the listing of a user has one mailbox for each entry of the user. -/
theorem Sound.mem_list_iff {s : Store} (h : Sound s) {user : String} {m : Listing} :
    m ∈ s.list user ↔ m.path.user = user ∧ ∃ e, s.entryAt? m.path = some e ∧
      m = ⟨e.id, m.path, e.messages⟩ := by
  rw [Store.mem_list_iff]
  constructor
  · rintro ⟨e, hmem, huser, hm⟩
    exact ⟨huser, e, (Keyed.find?_eq_some_iff h.sorted).mpr hmem, hm⟩
  · rintro ⟨huser, e, hfind, hm⟩
    exact ⟨e, (Keyed.find?_eq_some_iff h.sorted).mp hfind, huser, hm⟩

/-- A path is listed once. -/
theorem Sound.eq_of_mem_list {s : Store} (h : Sound s) {user : String} {m n : Listing}
    (hm : m ∈ s.list user) (hn : n ∈ s.list user) (hpath : m.path = n.path) : m = n := by
  obtain ⟨-, e, he, hm⟩ := h.mem_list_iff.mp hm
  obtain ⟨-, f, hf, hn⟩ := h.mem_list_iff.mp hn
  rw [hpath, hf] at he
  cases he
  rw [hm, hn, hpath]

end Store

end MailServer.Mailbox
