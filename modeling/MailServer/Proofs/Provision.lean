import MailServer.Account.Provision
import MailServer.Proofs.Script
import MailServer.Proofs.Store

/-!
# Provisioning

What provisioning a user does to the store and the registry. It may be done over and over: where it
succeeded, it finds nothing to do from then on, and where it failed, it fails again in the same way.

* `provisionUser_outcome`, `provisionMailbox_outcome` — everything the two steps can do.
* `Provisioned` — the user has everything; `provision_of_provisioned` says that provisioning then
  does nothing.
* `provision_cases` — provisioning makes a user provisioned, or fails and would fail again.
-/

namespace MailServer.Account

open Mailbox (Store)
open Service (Attempt Backend ask)
open Service.Backend

/-! ## The registry -/

theorem Registry.mem_place (user other : String) (users : List String) :
    other ∈ place user users ↔ other = user ∨ other ∈ users := by
  induction users with
  | nil => simp [place]
  | cons u users ih =>
    rw [place]
    split
    · exact List.mem_cons
    · rename_i hlt
      split
      · rw [List.mem_cons, ih, List.mem_cons, or_left_comm]
      · rename_i hgt
        have heq : user = u := le_antisymm (not_lt.mp hgt) (not_lt.mp hlt)
        rw [heq, List.mem_cons, ← or_assoc, or_self]

theorem Registry.contains_add (r : Registry) (user other : String) :
    (r.add user).contains other = true ↔ other = user ∨ r.contains other = true := by
  rw [contains, List.contains_iff_mem, contains, List.contains_iff_mem]
  exact mem_place user other r.users

/-! ## The two steps -/

/-- The state with the user in the registry. -/
def entered (caller : Caller) (b : Backend) : Backend :=
  { b with registry :=
      if b.registry.contains caller.user then b.registry else b.registry.add caller.user }

theorem contains_entered (caller : Caller) (b : Backend) :
    (entered caller b).registry.contains caller.user = true := by
  rw [entered]
  dsimp only
  split
  · assumption
  · exact (Registry.contains_add _ _ _).mpr (Or.inl rfl)

theorem entered_of_contains {caller : Caller} {b : Backend}
    (h : b.registry.contains caller.user = true) : entered caller b = b := by
  rw [entered, if_pos h]

/-- Entering a user in the registry does not fail here, and it is known from then on. -/
theorem provisionUser_outcome (caller : Caller) (b : Backend) :
    attempt (provisionUser caller) b = (.ok (), entered caller b) := by
  have hasked : attempt (reply (ask (.containsUser caller.user))) b =
      (.ok (b.registry.contains caller.user), b) := rfl
  rw [provisionUser, attempt_bind_ok hasked, entered]
  split
  · rfl
  · rfl

/-- Creating a default mailbox is a creation in the store, unless the mailbox is there. It fails on
the limit of the store only. -/
theorem provisionMailbox_outcome (caller : Caller) (name : String) (b : Backend) :
    attempt (provisionMailbox caller name) b =
      (if b.store.contains ⟨caller.user, name⟩ = true ∨ name.length ≤ b.store.limit then .ok ()
        else .error (.mailbox (.nameTooLong name b.store.limit)),
        { b with store := (b.store.create ⟨caller.user, name⟩).2 }) := by
  rw [provisionMailbox, attempt_bind_ok (attempt_ask (.mailboxExists ⟨caller.user, name⟩) b)]
  dsimp only [Backend.answer]
  cases hthere : b.store.contains ⟨caller.user, name⟩ with
  | true =>
    rw [if_pos (Or.inl rfl), Store.create_of_contains hthere]
    rfl
  | false =>
    dsimp only
    rw [attempt_bind_ok (attempt_ask (.createMailbox ⟨caller.user, name⟩) b)]
    dsimp only [Backend.answer]
    rcases Store.create_cases b.store ⟨caller.user, name⟩ with
      ⟨hlong, h⟩ | ⟨-, hcontains, -⟩ | ⟨hshort, -, h⟩
    · rw [h, if_neg (by simpa using hlong)]
      rfl
    · rw [hthere] at hcontains
      cases hcontains
    · rw [h, if_pos (Or.inr hshort)]
      rfl

/-- Where it succeeds, the mailbox is there and so is all that was; where it fails, it has changed
nothing. -/
theorem provisionMailbox_cases (caller : Caller) (name : String) (b : Backend) :
    (∃ after, attempt (provisionMailbox caller name) b = (.ok (), after) ∧
      after.store.contains ⟨caller.user, name⟩ = true ∧ Store.Keeps b.store after.store ∧
      after.registry = b.registry) ∨
    ∃ e, attempt (provisionMailbox caller name) b = (.error e, b) := by
  have houtcome := provisionMailbox_outcome caller name b
  have hkeeps := Store.keeps_create b.store ⟨caller.user, name⟩
  -- the mailbox is there already, or it can be made, or its name is over the limit
  by_cases hthere : b.store.contains ⟨caller.user, name⟩ = true
  · rw [if_pos (Or.inl hthere)] at houtcome
    exact Or.inl ⟨_, houtcome, hkeeps.contains hthere, hkeeps, rfl⟩
  by_cases hshort : name.length ≤ b.store.limit
  · rw [if_pos (Or.inr hshort)] at houtcome
    exact Or.inl ⟨_, houtcome, Store.contains_create hshort, hkeeps, rfl⟩
  · have hsame : (b.store.create ⟨caller.user, name⟩).2 = b.store :=
      Store.create_of_long (not_le.mp hshort)
    rw [if_neg (not_or.mpr ⟨hthere, hshort⟩), hsame] at houtcome
    exact Or.inr ⟨_, houtcome⟩

theorem provisionMailbox_of_contains {caller : Caller} {name : String} {b : Backend}
    (h : b.store.contains ⟨caller.user, name⟩ = true) :
    attempt (provisionMailbox caller name) b = (.ok (), b) := by
  rw [provisionMailbox_outcome, if_pos (Or.inl h), Store.create_of_contains h]

/-! ## Default mailboxes in a row -/

section Mailboxes

variable {caller : Caller} {names : List String} {b after : Backend}

/-- The mailboxes that are there stay. Induction on the names, as in all of this section. -/
theorem provisionAll_keeps {result : Except Error Unit}
    (h : attempt (names.forM (provisionMailbox caller)) b = (result, after)) :
    Store.Keeps b.store after.store ∧ after.registry = b.registry := by
  induction names generalizing b with
  | nil =>
    cases h
    exact ⟨Store.Keeps.refl _, rfl⟩
  | cons name names ih =>
    rw [forM_cons] at h
    obtain ⟨between, hfirst, -, hkeeps, hregistry⟩ | ⟨e, hfirst⟩ := provisionMailbox_cases caller name b
    · rw [attempt_bind_ok hfirst] at h
      obtain ⟨hrest, hsame⟩ := ih h
      exact ⟨hkeeps.trans hrest, hsame.trans hregistry⟩
    · rw [attempt_bind_error hfirst] at h
      cases h
      exact ⟨Store.Keeps.refl _, rfl⟩

/-- Nothing is done where nothing is missing. -/
theorem provisionAll_of_contains (h : ∀ name ∈ names, b.store.contains ⟨caller.user, name⟩ = true) :
    attempt (names.forM (provisionMailbox caller)) b = (.ok (), b) := by
  induction names with
  | nil => rfl
  | cons name names ih =>
    rw [forM_cons, attempt_bind_ok (provisionMailbox_of_contains (h name List.mem_cons_self))]
    exact ih fun name hname => h name (List.mem_cons_of_mem _ hname)

/-- Where no step fails, nothing is missing in the end. -/
theorem contains_of_provisionAll
    (h : attempt (names.forM (provisionMailbox caller)) b = (.ok (), after)) :
    ∀ name ∈ names, after.store.contains ⟨caller.user, name⟩ = true := by
  induction names generalizing b with
  | nil => exact fun _ hname => absurd hname List.not_mem_nil
  | cons name names ih =>
    rw [forM_cons] at h
    obtain ⟨between, hfirst, hthere, -, -⟩ | ⟨e, hfirst⟩ := provisionMailbox_cases caller name b
    · rw [attempt_bind_ok hfirst] at h
      intro other hother
      rcases List.mem_cons.mp hother with rfl | hother
      · exact (provisionAll_keeps h).1.contains hthere
      · exact ih h other hother
    · rw [attempt_bind_error hfirst] at h
      cases h

/-- Where a step fails, it fails again: the mailboxes before it are there by now, and it has left
everything as it was. -/
theorem provisionAll_again {e : Error}
    (h : attempt (names.forM (provisionMailbox caller)) b = (.error e, after)) :
    attempt (names.forM (provisionMailbox caller)) after = (.error e, after) := by
  induction names generalizing b with
  | nil => cases h
  | cons name names ih =>
    rw [forM_cons] at h ⊢
    obtain ⟨between, hfirst, hthere, -, -⟩ | ⟨e', hfirst⟩ := provisionMailbox_cases caller name b
    · rw [attempt_bind_ok hfirst] at h
      have hstill := (provisionAll_keeps h).1.contains hthere
      rw [attempt_bind_ok (provisionMailbox_of_contains hstill)]
      exact ih h
    · rw [attempt_bind_error hfirst] at h
      cases h
      exact attempt_bind_error hfirst

end Mailboxes

/-! ## Both steps -/

/-- Gives a user everything: the entry in the registry and the default mailboxes. -/
def provision (caller : Caller) : Attempt Error Unit := do
  provisionUser caller
  provisionMailboxes caller

/-- The user is known and has the default mailboxes. -/
structure Provisioned (caller : Caller) (b : Backend) : Prop where
  user : b.registry.contains caller.user = true
  mailboxes : ∀ name ∈ defaultMailboxes, b.store.contains ⟨caller.user, name⟩ = true

/-- A user who has everything keeps it as long as mailboxes stay. -/
theorem Provisioned.keeps {caller : Caller} {b after : Backend} (h : Provisioned caller b)
    (hstore : Store.Keeps b.store after.store) (hregistry : after.registry = b.registry) :
    Provisioned caller after where
  user := hregistry ▸ h.user
  mailboxes name hname := hstore.contains (h.mailboxes name hname)

theorem attempt_provision (caller : Caller) (b : Backend) :
    attempt (provision caller) b = attempt (provisionMailboxes caller) (entered caller b) :=
  attempt_bind_ok (provisionUser_outcome caller b)

/-- A user who has everything is given nothing. -/
theorem provision_of_provisioned {caller : Caller} {b : Backend} (h : Provisioned caller b) :
    attempt (provision caller) b = (.ok (), b) := by
  rw [attempt_provision, entered_of_contains h.user]
  exact provisionAll_of_contains h.mailboxes

/-- **Provisioning settles.** It gives the user everything, or it fails and fails again in the same
way from where it stopped. -/
theorem provision_cases (caller : Caller) (b : Backend) :
    (∃ after, attempt (provision caller) b = (.ok (), after) ∧ Provisioned caller after) ∨
    ∃ e after, attempt (provision caller) b = (.error e, after) ∧
      attempt (provision caller) after = (.error e, after) := by
  rw [attempt_provision]
  cases h : attempt (provisionMailboxes caller) (entered caller b) with
  | mk result after =>
    -- the user stays entered, so only the mailboxes are left to go wrong
    have hregistry : after.registry = (entered caller b).registry := (provisionAll_keeps h).2
    have huser : after.registry.contains caller.user = true := hregistry ▸ contains_entered caller b
    cases result with
    | ok u => exact Or.inl ⟨after, rfl, huser, contains_of_provisionAll h⟩
    | error e =>
      refine Or.inr ⟨e, after, rfl, ?_⟩
      rw [attempt_provision, entered_of_contains huser]
      exact provisionAll_again h

end MailServer.Account
