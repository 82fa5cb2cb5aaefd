import MailServer.Proofs.Script
import MailServer.Proofs.Store

/-!
# The number given out last

Two servers that differ in the number given out last give new mailboxes other numbers, and this is all
that they do differently. So where a script leaves mailboxes of the same numbers in both, it has done
the same in both.

* `countedFrom` — the server with another number given out last.
* `Store.lastId_grown_inj` — different numbers before a creation are different numbers after it.
* `Backend.run_countedFrom` — a script on two servers that differ in the number given out last.
-/

namespace MailServer.Mailbox.Store

/-- The store with another number given out last. -/
def countedFrom (n : UInt32) (s : Store) : Store := { s with lastId := n }

/-- Where both stores have the same mailboxes, both number the same ones that are missing. Induction
on the mailboxes. -/
theorem lastId_foldl_ensure_inj {s t : Store} (hsame : ∀ q, s.contains q = t.contains q)
    {ps : List Path} (h : (ps.foldl ensure s).lastId = (ps.foldl ensure t).lastId) :
    s.lastId = t.lastId := by
  induction ps generalizing s t with
  | nil => exact h
  | cons p ps ih =>
    have hensured : ∀ q, (s.ensure p).contains q = (t.ensure p).contains q := by
      intro q
      rw [Bool.eq_iff_iff, contains_ensure, contains_ensure, hsame]
    have hlast := ih hensured h
    unfold ensure at hlast
    rw [hsame] at hlast
    split at hlast
    · exact hlast
    · exact (UInt32.add_left_inj 1).mp hlast

theorem lastId_grown_inj {s : Store} {n : UInt32} {p : Path}
    (h : (s.grown p).lastId = ((s.countedFrom n).grown p).lastId) : s.lastId = n :=
  lastId_foldl_ensure_inj (t := s.countedFrom n) (fun _ => rfl) ((UInt32.add_left_inj 1).mp h)

/-- Under each of these paths the mailboxes of both stores have the same number. -/
def SameIds (paths : Path → Prop) (s t : Store) : Prop :=
  ∀ p e e', paths p → s.entryAt? p = some e → t.entryAt? p = some e' → e.id = e'.id

/-- What has the same numbers later has had them before. -/
theorem SameIds.of_keeps {paths : Path → Prop} {s t s' t' : Store} (h : SameIds paths s' t')
    (hs : Keeps s s') (ht : Keeps t t') : SameIds paths s t := by
  intro p e e' hp he he'
  obtain ⟨f, hf, hid⟩ := hs.entry p e he
  obtain ⟨f', hf', hid'⟩ := ht.entry p e' he'
  rw [← hid, ← hid']
  exact h p f f' hp hf hf'

/-- A creation that leaves mailboxes of the same numbers has been the same, number and all, or it has
created nothing. -/
theorem create_countedFrom {s : Store} {n : UInt32} {p : Path}
    (h : SameIds (fun _ => True) (s.create p).2 ((s.countedFrom n).create p).2) :
    s.lastId = n ∨
    (s.countedFrom n).create p = ((s.create p).1, (s.create p).2.countedFrom n) := by
  have hother := create_cases (s.countedFrom n) p
  rcases create_cases s p with ⟨hlong, hc⟩ | ⟨hshort, hthere, hc⟩ | ⟨hshort, hnew, hc⟩
  · rcases hother with ⟨-, hc'⟩ | ⟨hshort, -⟩ | ⟨hshort, -⟩
    · rw [hc, hc']
      exact Or.inr rfl
    · exact absurd hlong (not_lt.mpr hshort)
    · exact absurd hlong (not_lt.mpr hshort)
  · rcases hother with ⟨hlong, -⟩ | ⟨-, -, hc'⟩ | ⟨-, hnew, -⟩
    · exact absurd hlong (not_lt.mpr hshort)
    · rw [hc, hc']
      exact Or.inr rfl
    · exact absurd hthere hnew
  · rcases hother with ⟨hlong, -⟩ | ⟨-, hthere, -⟩ | ⟨-, -, hc'⟩
    · exact absurd hlong (not_lt.mpr hshort)
    · exact absurd hthere hnew
    · -- the new mailbox has the number given out last, in each of the stores
      rw [hc, hc'] at h
      have hid := h p ⟨⟨(s.grown p).lastId⟩, 0, 1⟩ ⟨⟨((s.countedFrom n).grown p).lastId⟩, 0, 1⟩ trivial
        (by rw [grown, entryAt?_add, if_pos rfl, lastId_add])
        (by rw [grown, entryAt?_add, if_pos rfl, lastId_add])
      exact Or.inl (lastId_grown_inj (congrArg Id.number hid))

theorem deliver_countedFrom (s : Store) (n : UInt32) (p : Path) :
    (s.countedFrom n).deliver p = ((s.deliver p).1, (s.deliver p).2.countedFrom n) := by
  unfold deliver
  rw [show (s.countedFrom n).entryAt? p = s.entryAt? p from rfl]
  cases s.entryAt? p <;> rfl

end MailServer.Mailbox.Store

namespace MailServer.Service.Backend

open Mailbox.Store (Keeps SameIds)

variable {α : Type}

/-- The server with another number given out last. -/
def countedFrom (n : UInt32) (b : Backend) : Backend := { b with store := b.store.countedFrom n }

theorem keeps_answer (c : Call) (b : Backend) : Keeps b.store (b.answer c).2.store := by
  cases c with
  | createMailbox path => exact Mailbox.Store.keeps_create b.store path
  | _ => exact Keeps.refl _

theorem keeps_run (script : Script α) (b : Backend) : Keeps b.store (b.run script).2.1.store :=
  outcome_keeps (P := fun after => Keeps b.store after.store)
    (fun c after h => h.trans (keeps_answer c after)) script (Keeps.refl _)

/-- A call that leaves mailboxes of the same numbers has been answered from the same number, or it has
not asked for one. -/
theorem answer_countedFrom {c : Call} {b : Backend} {n : UInt32}
    (h : SameIds (fun _ => True) (b.answer c).2.store ((b.countedFrom n).answer c).2.store) :
    b.store.lastId = n ∨
    (b.countedFrom n).answer c = ((b.answer c).1, (b.answer c).2.countedFrom n) := by
  cases c with
  | createMailbox path =>
    refine (Mailbox.Store.create_countedFrom h).imp_right fun hcreate => ?_
    unfold answer countedFrom
    dsimp only
    rw [hcreate]
  | _ => exact Or.inr rfl

/-- **A script that leaves mailboxes of the same numbers** on two servers that differ in the number
given out last has come to the same on both, and they differ in nothing else behind it. Induction on
the script; from a call on that gives out the same number the two servers are one. -/
theorem run_countedFrom {script : Script α} {b : Backend} {n : UInt32}
    (h : SameIds (fun _ => True) (b.run script).2.1.store ((b.countedFrom n).run script).2.1.store) :
    ∃ m, (b.countedFrom n).run script =
      ((b.run script).1, (b.run script).2.1.countedFrom m, (b.run script).2.2) := by
  unfold run at h ⊢
  induction script generalizing b n with
  | done a => exact ⟨n, rfl⟩
  | call c next ih =>
    have hkept := h.of_keeps (keeps_run _ (b.answer c).2) (keeps_run _ ((b.countedFrom n).answer c).2)
    rcases answer_countedFrom hkept with rfl | hanswer
    · exact ⟨_, rfl⟩
    · have hrun : Script.run answer (.call c next) (b.countedFrom n) =
          Script.run answer (next (b.answer c).1) ((b.answer c).2.countedFrom n) := by
        rw [Script.run, hanswer]
      rw [hrun] at h ⊢
      exact ih _ h
  | note m next ih =>
    obtain ⟨k, hk⟩ := ih h
    exact ⟨k, by rw [Script.run, hk]; rfl⟩

end MailServer.Service.Backend
