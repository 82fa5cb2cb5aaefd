import Mathlib.Data.Set.Basic
import MailServer.Proofs.Store
import MailServer.Service.Script

/-!
# Stores that fail

A store may fail at any call and with any error. What is taken of it here is that a call that fails
leaves the mailboxes as they are.

* `FailsCleanly` — a store whose calls, where they fail, change nothing.
* `Faulty` — the store in memory with faults at given calls; `Faulty.failsCleanly` — it is one.
-/

namespace MailServer.Service

open Mailbox (Path)

/-! ## Stores -/

/-- A store whose calls change nothing where they fail. A creation that succeeds adds its mailbox,
which was not there, and takes none away; the calls that only read change no mailbox. -/
structure FailsCleanly {σ : Type} (answer : (c : Call) → σ → c.Reply × σ)
    (mailboxes : σ → Set Path) : Prop where
  created {path : Path} {s : σ} {id : Mailbox.Id} :
    (answer (.createMailbox path) s).1 = .ok id →
      path ∉ mailboxes s ∧ path ∈ mailboxes (answer (.createMailbox path) s).2 ∧
        mailboxes s ⊆ mailboxes (answer (.createMailbox path) s).2
  refused {path : Path} {s : σ} {e : Mailbox.Error} :
    (answer (.createMailbox path) s).1 = .error e →
      mailboxes (answer (.createMailbox path) s).2 = mailboxes s
  read {c : Call} {s : σ} : (∀ path, c ≠ .createMailbox path) →
    mailboxes (answer c s).2 = mailboxes s

/-- The reply of a call that fails. -/
def Call.failure (e : Mailbox.Error) : (c : Call) → c.Reply
  | createMailbox _ | mailboxExists _ | status _ | listMailboxes _ => .error e
  | containsUser _ | addUser _ => .error (.mailbox e)

/-! ## The store in memory -/

namespace Backend

/-- The mailboxes that are there. -/
def mailboxes (b : Backend) : Set Path := {path | b.store.contains path = true}

variable {path : Path} {b : Backend}

theorem created {id : Mailbox.Id} (h : (b.answer (.createMailbox path)).1 = .ok id) :
    path ∉ b.mailboxes ∧ path ∈ (b.answer (.createMailbox path)).2.mailboxes ∧
      b.mailboxes ⊆ (b.answer (.createMailbox path)).2.mailboxes := by
  have hreply : (b.store.create path).1 = .ok id := h
  rcases Mailbox.Store.create_cases b.store path with ⟨-, hc⟩ | ⟨-, -, hc⟩ | ⟨hshort, hnew, -⟩
  · rw [hc] at hreply
    cases hreply
  · rw [hc] at hreply
    cases hreply
  · exact ⟨hnew, Mailbox.Store.contains_create hshort,
      fun q hq => (Mailbox.Store.keeps_create b.store path).contains hq⟩

theorem refused {e : Mailbox.Error} (h : (b.answer (.createMailbox path)).1 = .error e) :
    (b.answer (.createMailbox path)).2.mailboxes = b.mailboxes := by
  have hreply : (b.store.create path).1 = .error e := h
  rcases Mailbox.Store.create_cases b.store path with ⟨-, hc⟩ | ⟨-, -, hc⟩ | ⟨-, -, hc⟩
  · simp only [answer, mailboxes, hc]
  · simp only [answer, mailboxes, hc]
  · rw [hc] at hreply
    cases hreply

theorem read {c : Call} (h : ∀ path, c ≠ .createMailbox path) :
    (b.answer c).2.mailboxes = b.mailboxes := by
  cases c with
  | createMailbox path => exact absurd rfl (h path)
  | _ => rfl

end Backend

/-- The store in memory with a fault, or none, for each call to come. -/
structure Faulty where
  backend : Backend
  faults : List (Option Mailbox.Error)

namespace Faulty

/-- A call that meets a fault is not carried out. -/
def answer (c : Call) (s : Faulty) : c.Reply × Faulty :=
  match s.faults with
  | some e :: rest => (c.failure e, { s with faults := rest })
  | _ => ((s.backend.answer c).1, ⟨(s.backend.answer c).2, s.faults.tail⟩)

/-- The mailboxes that are there. -/
def mailboxes (s : Faulty) : Set Path := s.backend.mailboxes

end Faulty

/-- The store in memory with faults fails cleanly: a call that meets a fault is not carried out, and
a creation that is refused without one has changed nothing. -/
theorem Faulty.failsCleanly : FailsCleanly Faulty.answer Faulty.mailboxes where
  created {path s id} hreply := by
    obtain ⟨b, faults⟩ := s
    rcases faults with _ | ⟨_ | e, rest⟩
    · exact Backend.created hreply
    · exact Backend.created hreply
    · cases hreply
  refused {path s e} hreply := by
    obtain ⟨b, faults⟩ := s
    rcases faults with _ | ⟨_ | e', rest⟩
    · exact Backend.refused hreply
    · exact Backend.refused hreply
    · rfl
  read {c s} hc := by
    obtain ⟨b, faults⟩ := s
    rcases faults with _ | ⟨_ | e, rest⟩
    · exact Backend.read hc
    · exact Backend.read hc
    · rfl

end MailServer.Service
