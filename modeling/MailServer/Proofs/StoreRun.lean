import Mathlib.Data.List.Nodup
import MailServer.Proofs.Store

/-!
# Runs of a store

A run is a list of creations and deliveries, for any users and names, whether they succeed or not.

* `Operation`, `run` — the operations and what a run of them leaves.
* `delivered p ops s` — how many deliveries of a run to `p` succeed. It counts without bound, beside
  the counters of the entries, which are 32 bits wide.
* `sound_run`, `keeps_run`, `messagesAt_run` — what a run keeps, each by induction from what one
  operation keeps.
* `Sound.nodup_ids`, `Sound.path_of_id` — a number belongs to one mailbox, as long as they are few enough.
* `run_well_kept` — the state after a run from the empty store.
-/

namespace MailServer.Mailbox.Store

/-! ## Runs -/

/-- An operation that changes a store. -/
inductive Operation where
  | create (path : Path)
  | deliver (path : Path)
deriving DecidableEq, Repr

/-- The store after an operation. -/
def apply (s : Store) : Operation → Store
  | .create p => (s.create p).2
  | .deliver p => (s.deliver p).2

/-- The store after operations, one after the other. -/
def run (ops : List Operation) (s : Store) : Store := ops.foldl apply s

theorem run_append (before after : List Operation) (s : Store) :
    run (before ++ after) s = run after (run before s) := List.foldl_append

theorem Sound.apply {s : Store} (h : Sound s) (op : Operation) : Sound (s.apply op) := by
  cases op with
  | create p => exact h.create p
  | deliver p => exact h.deliver p

theorem sound_run {s : Store} (h : Sound s) (ops : List Operation) : Sound (run ops s) := by
  induction ops generalizing s with
  | nil => exact h
  | cons op ops ih => exact ih (h.apply op)

theorem keeps_apply (s : Store) (op : Operation) : Keeps s (s.apply op) := by
  cases op with
  | create p => exact keeps_create s p
  | deliver p => exact keeps_deliver s p

theorem keeps_run (s : Store) (ops : List Operation) : Keeps s (run ops s) := by
  induction ops generalizing s with
  | nil => exact Keeps.refl s
  | cons op ops ih => exact (keeps_apply s op).trans (ih _)

/-! ## Counting deliveries -/

/-- How many messages a path has; none where there is no mailbox. -/
def messagesAt (s : Store) (p : Path) : UInt32 := ((s.entryAt? p).map (·.messages)).getD 0

/-- One for a delivery to `p` that succeeds, else zero. -/
def receipt (p : Path) (s : Store) (op : Operation) : Nat :=
  if op = .deliver p ∧ (s.deliver p).1.isOk = true then 1 else 0

/-- How many deliveries to `p` succeed in a run that begins in `s`. -/
def delivered (p : Path) : List Operation → Store → Nat
  | [], _ => 0
  | op :: ops, s => receipt p s op + delivered p ops (s.apply op)

/-- A mailbox that is added has no messages, and a missing one has none either. -/
theorem messagesAt_add {s : Store} {p : Path} (h : ¬ s.contains p = true) (q : Path) :
    (s.add p).messagesAt q = s.messagesAt q := by
  rw [messagesAt, messagesAt, entryAt?_add]
  split
  · rename_i hpq
    rw [← hpq, entryAt?_of_not_contains h]
    rfl
  · rfl

theorem messagesAt_foldl_ensure (s : Store) (ps : List Path) (q : Path) :
    (ps.foldl ensure s).messagesAt q = s.messagesAt q := by
  induction ps generalizing s with
  | nil => rfl
  | cons p ps ih =>
    rw [List.foldl_cons, ih, ensure]
    split
    · rfl
    · rename_i h
      exact messagesAt_add h q

theorem messagesAt_create (s : Store) (p q : Path) :
    (s.create p).2.messagesAt q = s.messagesAt q := by
  rcases create_cases s p with ⟨-, h⟩ | ⟨-, -, h⟩ | ⟨-, hnew, h⟩
  · rw [h]
  · rw [h]
  · rw [h, grown, messagesAt_add (not_contains_ancestors_ensured hnew), messagesAt_foldl_ensure]

/-- A delivery that succeeds counts one message more at its path, and no other operation counts
any. -/
theorem messagesAt_apply (s : Store) (op : Operation) (q : Path) :
    (s.apply op).messagesAt q = s.messagesAt q + UInt32.ofNat (receipt q s op) := by
  cases op with
  | create p =>
    have hreceipt : receipt q s (.create p) = 0 := if_neg fun h => nomatch h.1
    rw [apply, messagesAt_create, hreceipt]
    exact (UInt32.add_zero _).symm
  | deliver p =>
    by_cases hpq : p = q
    · subst hpq
      -- a delivery to the path itself is counted where there is a mailbox
      rcases deliver_cases s p with ⟨hnone, hd⟩ | ⟨e, he, hd⟩
      · have hreceipt : receipt p s (.deliver p) = 0 := by
          refine if_neg fun h => ?_
          rw [hd] at h
          cases h.2
        rw [apply, hd, hreceipt]
        exact (UInt32.add_zero _).symm
      · have hreceipt : receipt p s (.deliver p) = 1 := if_pos ⟨rfl, by rw [hd]; rfl⟩
        rw [apply, messagesAt, entryAt?_deliver, if_pos rfl, messagesAt, he, hreceipt]
        rfl
    · have hreceipt : receipt q s (.deliver p) = 0 := by
        refine if_neg fun h => hpq ?_
        injection h.1
      rw [apply, messagesAt, entryAt?_deliver, if_neg hpq, hreceipt]
      exact (UInt32.add_zero _).symm

/-- The counter of a mailbox after a run is the one before it plus the deliveries counted on the
way, modulo `2 ^ 32`. -/
theorem messagesAt_run (ops : List Operation) (s : Store) (p : Path) :
    (run ops s).messagesAt p = s.messagesAt p + UInt32.ofNat (delivered p ops s) := by
  induction ops generalizing s with
  | nil => exact (UInt32.add_zero _).symm
  | cons op ops ih =>
    have hrun : run (op :: ops) s = run ops (s.apply op) := rfl
    rw [hrun, ih, messagesAt_apply, delivered, UInt32.ofNat_add, UInt32.add_assoc]

theorem receipt_le_one (p : Path) (s : Store) (op : Operation) : receipt p s op ≤ 1 := by
  unfold receipt
  split <;> omega

theorem delivered_le_length (p : Path) (ops : List Operation) (s : Store) :
    delivered p ops s ≤ ops.length := by
  induction ops generalizing s with
  | nil => exact Nat.le_refl 0
  | cons op ops ih =>
    have hop := receipt_le_one p s op
    have hops := ih (s.apply op)
    rw [delivered, List.length_cons]
    omega

/-! ## The state after a run -/

/-- The numbers of the mailboxes, in the order of the paths. -/
def numbers (s : Store) : List Nat := s.entries.map (·.2.id.number.toNat)

/-- With fewer than `2 ^ 32` mailboxes no number has been given out twice. -/
theorem Sound.numbers_perm {s : Store} (h : Sound s) (hfew : s.entries.length < 2 ^ 32) :
    s.numbers.Perm (List.range' 1 s.entries.length) := by
  have hmap : s.numbers = (s.entries.map (·.2.id.number)).map UInt32.toNat := by
    rw [numbers, List.map_map]
    rfl
  -- numbers below `2 ^ 32` come back from 32 bits unchanged
  have hrange : ((List.range' 1 s.entries.length).map UInt32.ofNat).map UInt32.toNat
      = List.range' 1 s.entries.length := by
    rw [List.map_map]
    conv_rhs => rw [← List.map_id (List.range' 1 s.entries.length)]
    refine List.map_congr_left ?_
    intro n hn
    have hlt : n < 2 ^ 32 := by
      rw [List.mem_range'_1] at hn
      omega
    exact UInt32.toNat_ofNat_of_lt' hlt
  rw [hmap]
  exact hrange ▸ h.ids.map UInt32.toNat

/-- Nor is there then a number under which two mailboxes are kept. -/
theorem Sound.nodup_ids {s : Store} (h : Sound s) (hfew : s.entries.length < 2 ^ 32) :
    (s.entries.map (·.2.id)).Nodup := by
  have hnumbers : s.numbers.Nodup := (h.numbers_perm hfew).nodup_iff.mpr List.nodup_range'
  have hmap : s.numbers = (s.entries.map (·.2.id)).map (·.number.toNat) := by
    rw [numbers, List.map_map]
    rfl
  exact List.Nodup.of_map _ (hmap ▸ hnumbers)

theorem Sound.path_of_id {s : Store} (h : Sound s) (hfew : s.entries.length < 2 ^ 32) {p q : Path}
    {e f : Entry} (hp : s.entryAt? p = some e) (hq : s.entryAt? q = some f) (hid : e.id = f.id) : p = q :=
  congrArg Prod.fst (List.inj_on_of_nodup_map (h.nodup_ids hfew) (Keyed.mem_of_find? hp)
    (Keyed.mem_of_find? hq) hid)

/-- What holds of a store after a run, where `deliveries` counts the deliveries that succeeded. -/
structure WellKept (limit : Nat) (d : Char) (deliveries : Path → Nat) (s : Store) : Prop where
  /-- The entries are the mailboxes, each once. -/
  paths_distinct : (s.entries.map (·.1)).Nodup
  entryAt?_iff : ∀ p e, s.entryAt? p = some e ↔ (p, e) ∈ s.entries
  /-- The numbers are pairwise distinct, and they are those from one to the number of mailboxes. -/
  numbers_distinct : s.numbers.Nodup
  mem_numbers_iff : ∀ n, n ∈ s.numbers ↔ 1 ≤ n ∧ n ≤ s.entries.length
  /-- Enclosing mailboxes are there, and they are the same user's. -/
  enclosed : ∀ p, s.contains p = true → ∀ a ∈ p.ancestors d, a.user = p.user ∧ s.contains a = true
  short : ∀ p, s.contains p = true → p.name.length ≤ limit
  /-- A mailbox has the messages delivered to it, and the next one gets the next number. -/
  counted : ∀ p e, s.entryAt? p = some e →
    e.messages.toNat = deliveries p ∧ e.uidNext.toNat = e.messages.toNat + 1

/-- A counter that is `n` modulo `2 ^ 32` is `n`, if that is small enough. -/
theorem toNat_messages {s : Store} {p : Path} {e : Entry} {n : Nat} (he : s.entryAt? p = some e)
    (hcount : s.messagesAt p = UInt32.ofNat n) (hfew : n < 2 ^ 32 - 1) : e.messages.toNat = n := by
  rw [messagesAt, he] at hcount
  have hlt : n < 2 ^ 32 := by omega
  exact (congrArg UInt32.toNat hcount).trans (UInt32.toNat_ofNat_of_lt' hlt)

/-- The counters of an entry after a run from the empty store, as natural numbers. -/
theorem counted_run (limit : Nat) (d : Char) (ops : List Operation) {p : Path} {e : Entry}
    (hfew : delivered p ops (empty limit d) < 2 ^ 32 - 1)
    (h : (run ops (empty limit d)).entryAt? p = some e) :
    e.messages.toNat = delivered p ops (empty limit d) ∧
      e.uidNext.toNat = e.messages.toNat + 1 := by
  have hcount := messagesAt_run ops (empty limit d) p
  have hempty : (empty limit d).messagesAt p = 0 := rfl
  rw [hempty, UInt32.zero_add] at hcount
  have hmessages := toNat_messages h hcount hfew
  have huid := (sound_run (Sound.empty limit d) ops).counted p e h
  refine ⟨hmessages, ?_⟩
  rw [huid, UInt32.toNat_add, UInt32.toNat_one]
  omega

/-- **The state after a run.** Whatever is asked of an empty store, as long as fewer than `2 ^ 32`
mailboxes come into being and fewer than `2 ^ 32 - 1` messages are delivered to each: the state is
well kept, and a path that was there at any earlier moment is still there, under the number it had
then. -/
theorem run_well_kept (limit : Nat) (d : Char) (ops : List Operation)
    (hcreated : (run ops (empty limit d)).entries.length < 2 ^ 32)
    (hdelivered : ∀ p, delivered p ops (empty limit d) < 2 ^ 32 - 1) :
    WellKept limit d (fun p => delivered p ops (empty limit d)) (run ops (empty limit d)) ∧
    ∀ before after, ops = before ++ after →
      ∀ p e, (run before (empty limit d)).entryAt? p = some e →
        ∃ e', (run ops (empty limit d)).entryAt? p = some e' ∧ e'.id = e.id := by
  have hsound := sound_run (Sound.empty limit d) ops
  have hkeeps := keeps_run (empty limit d) ops
  have hperm := hsound.numbers_perm hcreated
  refine ⟨?_, ?_⟩
  · refine ⟨hsound.sorted.nodup_keys, fun p e => Keyed.find?_eq_some_iff hsound.sorted, ?_, ?_, ?_,
      ?_, fun p e => counted_run limit d ops (hdelivered p)⟩
    · exact hperm.nodup_iff.mpr List.nodup_range'
    · intro n
      rw [hperm.mem_iff, List.mem_range'_1]
      omega
    · intro p hp a ha
      -- the delimiter after the run is the one of the empty store
      have ha' : a ∈ p.ancestors (run ops (empty limit d)).delimiter := by
        rwa [hkeeps.delimiter]
      exact ⟨Path.user_of_mem_ancestors ha, hsound.enclosed p hp a ha'⟩
    · intro p hp
      exact (hsound.short p hp).trans hkeeps.limit.le
  · intro before after hsplit p e he
    rw [hsplit, run_append]
    exact (keeps_run _ after).entry p e he

/-- A run in which operations succeed and fail: a nested creation, one that is there already, one
too long, and deliveries to a mailbox and to none. -/
theorem run_well_kept_mixed :
    let ops : List Operation := [.create ⟨"ann", "Work.Q1.Plans"⟩, .create ⟨"ann", "Work"⟩,
      .create ⟨"bob", "a name too long for it"⟩, .deliver ⟨"ann", "Work.Q1"⟩,
      .deliver ⟨"bob", "Work.Q1"⟩, .create ⟨"bob", "Work.Q1"⟩, .deliver ⟨"ann", "Work.Q1"⟩]
    let s := run ops (empty 16 '.')
    s.entries.length = 5 ∧ delivered ⟨"ann", "Work.Q1"⟩ ops (empty 16 '.') = 2 ∧
      WellKept 16 '.' (fun p => delivered p ops (empty 16 '.')) s ∧
      ∃ e, s.entryAt? ⟨"ann", "Work"⟩ = some e ∧ e.id = ⟨1⟩ := by
  intro ops s
  have hlength : s.entries.length = 5 := by decide
  have hdelivered : ∀ p, delivered p ops (empty 16 '.') < 2 ^ 32 - 1 := fun p =>
    (delivered_le_length p ops _).trans_lt (by decide)
  obtain ⟨hkept, hlater⟩ := run_well_kept 16 '.' ops (hlength ▸ by decide) hdelivered
  exact ⟨hlength, by decide, hkept,
    hlater [.create ⟨"ann", "Work.Q1.Plans"⟩] _ rfl ⟨"ann", "Work"⟩ ⟨⟨1⟩, 0, 1⟩ (by decide)⟩

end MailServer.Mailbox.Store
