import Mathlib.Order.Defs.Unbundled
import MailServer.Keyed

/-!
# Entries in key order — what an insertion does

An insertion is seen in two ways: through `find?`, which needs nothing but an order of the keys,
and through the list of entries, which needs that each key is there once.

* `find?_insert` — the entry of one key changes, the others stay.
* `Sorted` — strictly increasing keys, kept by `Sorted.insert`.
* `find?_eq_some_iff` — among sorted entries, finding an entry is membership.
* `insert_perm_cons` — a new key adds one entry; `map_insert_of_find?` — a known key replaces its
  entry in its place.
* `sorted_ofList`, `mem_of_mem_ofList`, `key_mem_ofList` — what entries that were put in order are;
  `ofList_of_sorted` — entries that are in order stay as they are.
* `filter_insert_of_pos`, `filter_insert_of_neg` — an insertion as seen through some of the keys.
-/

namespace MailServer.Keyed

variable {κ α β : Type}

/-! ## Finding an entry -/

section Find

variable [DecidableEq κ]

theorem mem_of_find? {k : κ} {v : α} {l : List (κ × α)} (h : find? k l = some v) :
    (k, v) ∈ l := by
  induction l with
  | nil => cases h
  | cons entry rest ih =>
    obtain ⟨m, w⟩ := entry
    rw [find?] at h
    split at h
    · rename_i hm
      cases h
      exact hm ▸ List.mem_cons_self
    · exact List.mem_cons_of_mem _ (ih h)

theorem find?_eq_none_iff {l : List (κ × α)} {k : κ} :
    find? k l = none ↔ k ∉ l.map (·.1) := by
  induction l with
  | nil => simp [find?]
  | cons entry rest ih =>
    obtain ⟨m, w⟩ := entry
    by_cases hm : m = k
    · simp [find?, hm]
    · simp [find?, hm, ih, Ne.symm hm]

/-- The entry of `k` is the inserted one, and that of any other key is what it was. Induction on
the entries; where the scan stops at a key that is neither below nor above `k`, it is `k`. -/
theorem find?_insert [LT κ] [DecidableLT κ] [IsStrictTotalOrder κ (· < ·)] (k k' : κ) (v : α)
    (l : List (κ × α)) :
    find? k' (insert k v l) = if k = k' then some v else find? k' l := by
  induction l with
  | nil => rfl
  | cons entry rest ih =>
    obtain ⟨m, w⟩ := entry
    rw [insert]
    split
    · rfl
    · rename_i hkm
      split
      · rename_i hmk
        rw [find?, ih, find?]
        by_cases hk : k = k'
        · subst hk
          have hm : m ≠ k := by
            rintro rfl
            exact irrefl_of (· < ·) m hmk
          rw [if_neg hm, if_pos rfl, if_pos rfl]
        · rw [if_neg hk, if_neg hk]
      · rename_i hmk
        -- neither below nor above the scanned key, `k` is that key
        have hkm' : k = m := Std.Trichotomous.trichotomous (r := (· < ·)) k m hkm hmk
        subst hkm'
        by_cases hk : k = k'
        · rw [find?, if_pos hk, if_pos hk]
        · rw [find?, if_neg hk, if_neg hk, find?, if_neg hk]

end Find

/-! ## Entries in strictly increasing order -/

/-- Strictly increasing keys, so that each key has at most one entry. -/
def Sorted [LT κ] (l : List (κ × α)) : Prop := l.Pairwise fun a b => a.1 < b.1

section Sorted

variable [LT κ] [IsStrictTotalOrder κ (· < ·)]

/-- The keys of sorted entries are pairwise distinct. -/
theorem Sorted.nodup_keys {l : List (κ × α)} (h : Sorted l) : (l.map (·.1)).Nodup := by
  refine List.pairwise_map.mpr (List.Pairwise.imp ?_ h)
  intro a b hab heq
  exact irrefl_of (· < ·) b.1 (heq ▸ hab)

/-- Among sorted entries, the entry found under a key is the one that is there. -/
theorem find?_eq_some_iff [DecidableEq κ] {l : List (κ × α)} (h : Sorted l) {k : κ} {v : α} :
    find? k l = some v ↔ (k, v) ∈ l := by
  refine ⟨mem_of_find?, ?_⟩
  intro hmem
  induction l with
  | nil => cases hmem
  | cons entry rest ih =>
    obtain ⟨m, w⟩ := entry
    obtain ⟨hm, hrest⟩ := List.pairwise_cons.mp h
    rw [find?]
    rcases List.mem_cons.mp hmem with heq | hmem
    · cases heq
      rw [if_pos rfl]
    · have hne : m ≠ k := by
        rintro rfl
        exact irrefl_of (· < ·) m (hm (m, v) hmem)
      rw [if_neg hne]
      exact ih hrest hmem

/-- Sorted entries have one value under a key. -/
theorem Sorted.eq_of_mem [DecidableEq κ] {l : List (κ × α)} (h : Sorted l) {k : κ} {v w : α}
    (hv : (k, v) ∈ l) (hw : (k, w) ∈ l) : v = w :=
  Option.some.inj (((find?_eq_some_iff h).mpr hv).symm.trans ((find?_eq_some_iff h).mpr hw))

end Sorted

/-! ## Insertion into the list -/

section Insert

variable [LT κ] [DecidableLT κ]

/-- An entry after an insertion is the inserted one or was there before. -/
theorem mem_of_mem_insert {k : κ} {v : α} {l : List (κ × α)} {e : κ × α}
    (h : e ∈ insert k v l) : e = (k, v) ∨ e ∈ l := by
  induction l with
  | nil => simpa [insert] using h
  | cons entry rest ih =>
    obtain ⟨m, w⟩ := entry
    rw [insert] at h
    split at h
    · simpa using h
    · split at h
      · rcases List.mem_cons.mp h with rfl | h
        · exact Or.inr List.mem_cons_self
        · exact (ih h).imp_right (List.mem_cons_of_mem _)
      · rcases List.mem_cons.mp h with rfl | h
        · exact Or.inl rfl
        · exact Or.inr (List.mem_cons_of_mem _ h)

variable [IsStrictTotalOrder κ (· < ·)]

/-- An insertion keeps the keys strictly increasing. -/
theorem Sorted.insert {l : List (κ × α)} (h : Sorted l) (k : κ) (v : α) :
    Sorted (insert k v l) := by
  induction l with
  | nil => exact List.pairwise_singleton _ _
  | cons entry rest ih =>
    obtain ⟨m, w⟩ := entry
    obtain ⟨hm, hrest⟩ := List.pairwise_cons.mp h
    rw [Keyed.insert]
    split
    · rename_i hkm
      refine List.pairwise_cons.mpr ⟨?_, h⟩
      intro e he
      rcases List.mem_cons.mp he with rfl | he
      · exact hkm
      · exact trans_of (· < ·) hkm (hm e he)
    · rename_i hkm
      split
      · rename_i hmk
        refine List.pairwise_cons.mpr ⟨?_, ih hrest⟩
        intro e he
        rcases mem_of_mem_insert he with rfl | he
        · exact hmk
        · exact hm e he
      · rename_i hmk
        have hk : k = m := Std.Trichotomous.trichotomous (r := (· < ·)) k m hkm hmk
        exact List.pairwise_cons.mpr ⟨fun e he => hk ▸ hm e he, hrest⟩

variable [DecidableEq κ]

/-- A key without an entry gets one, and nothing else changes. -/
theorem insert_perm_cons {k : κ} {l : List (κ × α)} (h : find? k l = none) (v : α) :
    (insert k v l).Perm ((k, v) :: l) := by
  induction l with
  | nil => exact List.Perm.refl _
  | cons entry rest ih =>
    obtain ⟨m, w⟩ := entry
    rw [find?] at h
    split at h
    · cases h
    · rename_i hm
      rw [insert]
      split
      · exact List.Perm.refl _
      · rename_i hkm
        split
        · exact ((ih h).cons _).trans (List.Perm.swap _ _ _)
        · rename_i hmk
          exact absurd (Std.Trichotomous.trichotomous (r := (· < ·)) k m hkm hmk) (Ne.symm hm)

/-- A key with an entry keeps its place: what does not tell the two entries apart sees no change. -/
theorem map_insert_of_find? {l : List (κ × α)} (hs : Sorted l) {k : κ} {v w : α}
    (h : find? k l = some w) (f : κ × α → β) (hf : f (k, v) = f (k, w)) :
    (insert k v l).map f = l.map f := by
  induction l with
  | nil => cases h
  | cons entry rest ih =>
    obtain ⟨m, u⟩ := entry
    obtain ⟨hm, hrest⟩ := List.pairwise_cons.mp hs
    rw [find?] at h
    split at h
    · rename_i hmk
      cases h
      subst hmk
      have hirr : ¬ m < m := irrefl_of (· < ·) m
      rw [insert, if_neg hirr, if_neg hirr, List.map_cons, List.map_cons, hf]
    -- the entry of `k` lies further on, so the scan goes past `m`
    · have hmk : m < k := hm (k, w) (mem_of_find? h)
      have hkm : ¬ k < m := fun hkm => irrefl_of (· < ·) k (trans_of (· < ·) hkm hmk)
      rw [insert, if_neg hkm, if_pos hmk, List.map_cons, List.map_cons, ih hrest h]

end Insert

/-! ## Putting entries in order -/

section OfList

variable [LT κ] [DecidableLT κ]

/-- The entries put in order are entries that were given. -/
theorem mem_of_mem_ofList {e : κ × α} {l : List (κ × α)} (h : e ∈ ofList l) : e ∈ l := by
  have hplaced : ∀ rest placed : List (κ × α),
      e ∈ rest.foldl (fun acc e => insert e.1 e.2 acc) placed → e ∈ placed ∨ e ∈ rest := by
    intro rest
    induction rest with
    | nil => exact fun placed he => Or.inl he
    | cons entry rest ih =>
      intro placed he
      rcases ih _ he with he | he
      · rcases mem_of_mem_insert he with rfl | he
        · exact Or.inr List.mem_cons_self
        · exact Or.inl he
      · exact Or.inr (List.mem_cons_of_mem _ he)
  rcases hplaced l [] h with he | he
  · cases he
  · exact he

variable [IsStrictTotalOrder κ (· < ·)]

theorem sorted_ofList (l : List (κ × α)) : Sorted (ofList l) := by
  have hplaced : ∀ rest placed : List (κ × α), Sorted placed →
      Sorted (rest.foldl (fun acc e => insert e.1 e.2 acc) placed) := by
    intro rest
    induction rest with
    | nil => exact fun placed hsorted => hsorted
    | cons entry rest ih => exact fun placed hsorted => ih _ (hsorted.insert _ _)
  exact hplaced l [] List.Pairwise.nil

section Keys

variable [DecidableEq κ]

theorem key_mem_insert {k k' : κ} {v : α} {l : List (κ × α)} :
    k' ∈ (insert k v l).map (·.1) ↔ k = k' ∨ k' ∈ l.map (·.1) := by
  rw [← Decidable.not_iff_not, not_or, ← find?_eq_none_iff, ← find?_eq_none_iff, find?_insert]
  split <;> simp_all

/-- No key is lost where entries are put in order. -/
theorem key_mem_ofList {k : κ} {l : List (κ × α)} : k ∈ (ofList l).map (·.1) ↔ k ∈ l.map (·.1) := by
  have hplaced : ∀ rest placed : List (κ × α),
      k ∈ (rest.foldl (fun acc e => insert e.1 e.2 acc) placed).map (·.1) ↔
        k ∈ placed.map (·.1) ∨ k ∈ rest.map (·.1) := by
    intro rest
    induction rest with
    | nil => simp
    | cons entry rest ih =>
      intro placed
      rw [List.foldl_cons, ih, key_mem_insert, List.map_cons, List.mem_cons, or_comm (a := entry.1 = k),
        or_assoc, eq_comm]
  simpa [ofList] using hplaced l []

theorem ofList_eq_nil_iff {l : List (κ × α)} : ofList l = [] ↔ l = [] := by
  rw [← List.map_eq_nil_iff, ← List.map_eq_nil_iff (l := l), List.eq_nil_iff_forall_not_mem,
    List.eq_nil_iff_forall_not_mem]
  exact forall_congr' fun k => not_congr key_mem_ofList

end Keys

/-- An entry above all others comes last. -/
theorem insert_of_forall_gt {k : κ} (v : α) {l : List (κ × α)} (h : ∀ e ∈ l, e.1 < k) :
    insert k v l = l ++ [(k, v)] := by
  induction l with
  | nil => rfl
  | cons entry rest ih =>
    have hk : entry.1 < k := h entry List.mem_cons_self
    have hnot : ¬ k < entry.1 := fun hlt => irrefl_of (· < ·) k (trans_of (· < ·) hlt hk)
    rw [insert, if_neg hnot, if_pos hk, ih fun e he => h e (List.mem_cons_of_mem _ he),
      List.cons_append]

/-- Entries in order stay as they are. Induction on the entries behind those that are in place. -/
theorem ofList_of_sorted {l : List (κ × α)} (h : Sorted l) : ofList l = l := by
  have hplaced : ∀ rest placed : List (κ × α), Sorted (placed ++ rest) →
      rest.foldl (fun acc e => insert e.1 e.2 acc) placed = placed ++ rest := by
    intro rest
    induction rest with
    | nil => exact fun placed _ => (List.append_nil placed).symm
    | cons entry rest ih =>
      intro placed hsorted
      have hbelow : ∀ e ∈ placed, e.1 < entry.1 := fun e he =>
        (List.pairwise_append.mp hsorted).2.2 e he entry List.mem_cons_self
      rw [List.foldl_cons, insert_of_forall_gt entry.2 hbelow, ih]
      · simp
      · simpa using hsorted
  exact hplaced l [] h

end OfList

/-! ## Some of the keys -/

section Filter

/-- Keys that are kept have the entries they had. -/
theorem find?_filter [DecidableEq κ] (keep : κ → Bool) {k : κ} (hk : keep k = true)
    (l : List (κ × α)) : find? k (l.filter (keep ·.1)) = find? k l := by
  induction l with
  | nil => rfl
  | cons entry rest ih =>
    obtain ⟨m, w⟩ := entry
    by_cases hm : m = k
    · subst hm
      rw [List.filter_cons_of_pos (by exact hk), find?, find?, if_pos rfl, if_pos rfl]
    · rw [find?, if_neg hm, ← ih, List.filter_cons]
      split
      · rw [find?, if_neg hm]
      · rfl

variable [LT κ] [DecidableLT κ]

/-- An entry below all others comes first. -/
theorem insert_of_forall_lt {k : κ} (v : α) {l : List (κ × α)} (h : ∀ e ∈ l, k < e.1) :
    insert k v l = (k, v) :: l := by
  cases l with
  | nil => rfl
  | cons entry rest => rw [insert, if_pos (h entry List.mem_cons_self)]

variable [IsStrictTotalOrder κ (· < ·)]

/-- An entry whose key is left out leaves the others as they are. -/
theorem filter_insert_of_neg (keep : κ → Bool) {k : κ} (hk : ¬ keep k = true) (v : α)
    (l : List (κ × α)) : (insert k v l).filter (keep ·.1) = l.filter (keep ·.1) := by
  induction l with
  | nil => rw [insert, List.filter_cons_of_neg (by exact hk)]
  | cons entry rest ih =>
    obtain ⟨m, w⟩ := entry
    rw [insert]
    split
    · rw [List.filter_cons_of_neg (by exact hk)]
    · rename_i hkm
      split
      · rw [List.filter_cons, List.filter_cons, ih]
      · rename_i hmk
        have hm : k = m := Std.Trichotomous.trichotomous (r := (· < ·)) k m hkm hmk
        subst hm
        rw [List.filter_cons_of_neg (by exact hk), List.filter_cons_of_neg (by exact hk)]

/-- An entry whose key is kept goes where it goes among the keys that are kept. -/
theorem filter_insert_of_pos (keep : κ → Bool) {k : κ} (hk : keep k = true) (v : α)
    {l : List (κ × α)} (h : Sorted l) :
    (insert k v l).filter (keep ·.1) = insert k v (l.filter (keep ·.1)) := by
  induction l with
  | nil => rw [insert, List.filter_cons_of_pos (by exact hk), List.filter_nil, insert]
  | cons entry rest ih =>
    obtain ⟨m, w⟩ := entry
    obtain ⟨hm, hrest⟩ := List.pairwise_cons.mp h
    rw [insert]
    split
    · rename_i hkm
      -- the entry comes before the ones that are kept, as it comes before all
      have hall : ∀ e ∈ ((m, w) :: rest).filter (keep ·.1), k < e.1 := by
        intro e he
        rcases List.mem_cons.mp (List.mem_filter.mp he).1 with rfl | he
        · exact hkm
        · exact trans_of (· < ·) hkm (hm e he)
      rw [List.filter_cons_of_pos (by exact hk), insert_of_forall_lt v hall]
    · rename_i hkm
      split
      · rename_i hmk
        rw [List.filter_cons, List.filter_cons, ih hrest]
        split
        · rw [insert, if_neg hkm, if_pos hmk]
        · rfl
      · rename_i hmk
        have heq : k = m := Std.Trichotomous.trichotomous (r := (· < ·)) k m hkm hmk
        subst heq
        rw [List.filter_cons_of_pos (by exact hk), List.filter_cons_of_pos (by exact hk), insert,
          if_neg hkm, if_neg hmk]

end Filter

end MailServer.Keyed
