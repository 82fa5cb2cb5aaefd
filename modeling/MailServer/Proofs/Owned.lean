import MailServer.Proofs.Provision

/-!
# One user's part of a server

The mailboxes of all users are in one store and their names in one registry. What a call of a user
does there is what it does where nobody else is, but for the number given out last; and it leaves the
parts of all others as they are.

* `Store.owned`, `Store.only` — the mailboxes of a user, and the store with these alone.
* `Backend.only` — the whole server with one user's part alone.
* `Call.user` — the user whom a call is about.
* `Backend.answer_only` — a call of a user, answered from the part of the user.
* `Backend.untouched_answer` — the part of another user after it.
-/

namespace MailServer.Mailbox.Store

variable {user : String} {s : Store} {p : Path}

/-! ## The order of the entries -/

theorem sorted_add (h : Keyed.Sorted s.entries) (p : Path) : Keyed.Sorted (s.add p).entries :=
  h.insert p _

theorem sorted_ensure (h : Keyed.Sorted s.entries) (p : Path) :
    Keyed.Sorted (s.ensure p).entries := by
  unfold ensure
  split
  · exact h
  · exact sorted_add h p

theorem sorted_foldl_ensure (h : Keyed.Sorted s.entries) (ps : List Path) :
    Keyed.Sorted (ps.foldl ensure s).entries := by
  induction ps generalizing s with
  | nil => exact h
  | cons p ps ih => exact ih (sorted_ensure h p)

theorem sorted_create (h : Keyed.Sorted s.entries) (p : Path) :
    Keyed.Sorted (s.create p).2.entries := by
  rcases create_cases s p with ⟨-, hc⟩ | ⟨-, -, hc⟩ | ⟨-, -, hc⟩
  · rwa [hc]
  · rwa [hc]
  · rw [hc]
    exact sorted_add (sorted_foldl_ensure h _) p

theorem sorted_deliver (h : Keyed.Sorted s.entries) (p : Path) :
    Keyed.Sorted (s.deliver p).2.entries := by
  rcases deliver_cases s p with ⟨-, hd⟩ | ⟨e, -, hd⟩
  · rwa [hd]
  · rw [hd]
    exact h.insert p _

/-! ## The mailboxes of a user -/

/-- The mailboxes of a user, with what is kept of them. -/
def owned (user : String) (s : Store) : List (Path × Entry) := s.entries.filter (·.1.user == user)

/-- The store with the mailboxes of the user alone. -/
def only (user : String) (s : Store) : Store := { s with entries := s.owned user }

/-- An entry of the user goes where it goes among the user's. -/
theorem filter_insert_own (hp : p.user = user) (h : Keyed.Sorted s.entries) (e : Entry) :
    (Keyed.insert p e s.entries).filter (·.1.user == user) = Keyed.insert p e (s.owned user) :=
  Keyed.filter_insert_of_pos (fun q : Path => q.user == user) (beq_iff_eq.mpr hp) e h

/-- An entry of another user is none of the user's. -/
theorem filter_insert_other (hp : p.user ≠ user) (s : Store) (e : Entry) :
    (Keyed.insert p e s.entries).filter (·.1.user == user) = s.owned user :=
  Keyed.filter_insert_of_neg (fun q : Path => q.user == user) (by simpa using hp) e s.entries

/-! ### A mailbox of the user -/

section Own

theorem entryAt?_only (hp : p.user = user) : (s.only user).entryAt? p = s.entryAt? p :=
  Keyed.find?_filter (fun q : Path => q.user == user) (beq_iff_eq.mpr hp) s.entries

theorem contains_only (hp : p.user = user) : (s.only user).contains p = s.contains p := by
  rw [contains, contains, entryAt?_only hp]

theorem status_only (hp : p.user = user) : (s.only user).status p = s.status p := by
  rw [status, status, entryAt?_only hp]

theorem list_only (user : String) (s : Store) : (s.only user).list user = s.list user := by
  rw [list, list, only, owned, List.filter_filter]
  simp only [Bool.and_self]

variable (hp : p.user = user) (h : Keyed.Sorted s.entries)
include hp h

theorem add_only : (s.only user).add p = (s.add p).only user := by
  unfold add only owned
  rw [filter_insert_own hp h]
  rfl

theorem ensure_only : (s.only user).ensure p = (s.ensure p).only user := by
  unfold ensure
  rw [contains_only hp]
  split
  · rfl
  · exact add_only hp h

omit hp in
theorem foldl_ensure_only {ps : List Path} (hps : ∀ q ∈ ps, q.user = user) :
    ps.foldl ensure (s.only user) = (ps.foldl ensure s).only user := by
  induction ps generalizing s with
  | nil => rfl
  | cons q ps ih =>
    obtain ⟨hq, hps⟩ := List.forall_mem_cons.mp hps
    rw [List.foldl_cons, List.foldl_cons, ensure_only hq h, ih (sorted_ensure h q) hps]

/-- The ancestors of a mailbox are its user's, so that it grows the user's part. -/
theorem grown_only : (s.only user).grown p = (s.grown p).only user := by
  have hancestors : ∀ q ∈ p.ancestors s.delimiter, q.user = user :=
    fun q hq => (Path.user_of_mem_ancestors hq).trans hp
  unfold grown
  rw [show (s.only user).delimiter = s.delimiter from rfl, foldl_ensure_only h hancestors,
    add_only hp (sorted_foldl_ensure h _)]

theorem create_only : (s.only user).create p = ((s.create p).1, (s.create p).2.only user) := by
  have hgrown := grown_only hp h
  unfold create
  rw [show (s.only user).limit = s.limit from rfl, contains_only hp]
  split
  · rfl
  · split
    · rfl
    · show (Except.ok (Id.mk ((s.only user).grown p).lastId), (s.only user).grown p) = _
      rw [hgrown]
      rfl

theorem deliver_only : (s.only user).deliver p = ((s.deliver p).1, (s.deliver p).2.only user) := by
  unfold deliver
  rw [entryAt?_only hp]
  cases s.entryAt? p with
  | none => rfl
  | some e =>
    unfold only owned
    rw [filter_insert_own hp h]
    rfl

end Own

/-! ### A mailbox of another user -/

section Other

variable (hp : p.user ≠ user)
include hp

theorem owned_add (s : Store) : (s.add p).owned user = s.owned user :=
  filter_insert_other hp s _

theorem owned_ensure (s : Store) : (s.ensure p).owned user = s.owned user := by
  unfold ensure
  split
  · rfl
  · exact owned_add hp s

omit hp in
theorem owned_foldl_ensure {ps : List Path} (hps : ∀ q ∈ ps, q.user ≠ user) (s : Store) :
    (ps.foldl ensure s).owned user = s.owned user := by
  induction ps generalizing s with
  | nil => rfl
  | cons q ps ih =>
    obtain ⟨hq, hps⟩ := List.forall_mem_cons.mp hps
    rw [List.foldl_cons, ih hps, owned_ensure hq]

theorem owned_create (s : Store) : (s.create p).2.owned user = s.owned user := by
  rcases create_cases s p with ⟨-, hc⟩ | ⟨-, -, hc⟩ | ⟨-, -, hc⟩
  · rw [hc]
  · rw [hc]
  · rw [hc]
    exact (owned_add hp _).trans
      (owned_foldl_ensure (fun q hq hq' => hp ((Path.user_of_mem_ancestors hq).symm.trans hq')) s)

theorem owned_deliver (s : Store) : (s.deliver p).2.owned user = s.owned user := by
  rcases deliver_cases s p with ⟨-, hd⟩ | ⟨e, -, hd⟩
  · rw [hd]
  · rw [hd]
    exact filter_insert_other hp s _

end Other

end MailServer.Mailbox.Store

namespace MailServer.Account.Registry

/-- The registry that knows of the user alone, if the registry knows the user. -/
def only (user : String) (r : Registry) : Registry := if r.contains user then ⟨[user]⟩ else .empty

theorem contains_only (user : String) (r : Registry) :
    (r.only user).contains user = r.contains user := by
  unfold only
  split
  · rename_i h
    rw [h]
    simp [contains]
  · rename_i h
    rw [Bool.eq_false_iff.mpr h]
    rfl

theorem add_only (user : String) (r : Registry) : (r.only user).add user = (r.add user).only user := by
  have hadded : (r.add user).contains user = true := (contains_add r user user).mpr (Or.inl rfl)
  have hplace : place user [user] = [user] := by
    rw [place, if_neg (lt_irrefl user), if_neg (lt_irrefl user)]
  unfold only
  rw [if_pos hadded]
  split
  · rw [add, hplace]
  · rfl

end MailServer.Account.Registry

namespace MailServer.Service

/-- The user whom a call is about. -/
def Call.user : Call → String
  | createMailbox path | mailboxExists path | status path => path.user
  | listMailboxes user | containsUser user | addUser user => user

namespace Backend

variable {user : String} {c : Call} {b : Backend}

/-! ## The whole server -/

theorem sorted_answer (h : Keyed.Sorted b.store.entries) (c : Call) :
    Keyed.Sorted (b.answer c).2.store.entries := by
  cases c with
  | createMailbox path => exact Mailbox.Store.sorted_create h path
  | _ => exact h

/-- The server with one user's part alone. -/
def only (user : String) (b : Backend) : Backend := ⟨b.store.only user, b.registry.only user⟩

/-- **A call of a user is answered from the user's part**, which it leaves as it leaves that part of
the whole server. -/
theorem answer_only (hc : c.user = user) (h : Keyed.Sorted b.store.entries) :
    (b.only user).answer c = ((b.answer c).1, (b.answer c).2.only user) := by
  cases c with
  | createMailbox path =>
    unfold answer only
    dsimp only
    rw [Mailbox.Store.create_only hc h]
  | mailboxExists path =>
    unfold answer only
    dsimp only
    rw [Mailbox.Store.contains_only hc]
  | status path =>
    unfold answer only
    dsimp only
    rw [Mailbox.Store.status_only hc]
  | listMailboxes other =>
    cases hc
    unfold answer only
    dsimp only [Call.user]
    rw [Mailbox.Store.list_only]
  | containsUser other =>
    cases hc
    unfold answer only
    dsimp only [Call.user]
    rw [Account.Registry.contains_only]
  | addUser other =>
    cases hc
    unfold answer only
    dsimp only [Call.user]
    rw [Account.Registry.add_only]

/-- The later server has the same part for the user. The numbers given out to others may have gone
on. -/
structure Untouched (user : String) (b after : Backend) : Prop where
  owned : after.store.owned user = b.store.owned user
  known : after.registry.contains user = b.registry.contains user

theorem Untouched.refl (user : String) (b : Backend) : Untouched user b b := ⟨rfl, rfl⟩

theorem Untouched.trans {b₁ b₂ b₃ : Backend} (h₁ : Untouched user b₁ b₂) (h₂ : Untouched user b₂ b₃) :
    Untouched user b₁ b₃ := ⟨h₂.owned.trans h₁.owned, h₂.known.trans h₁.known⟩

/-- **A call about another user** leaves the user's part as it is. -/
theorem untouched_answer (hc : c.user ≠ user) (b : Backend) : Untouched user b (b.answer c).2 := by
  cases c with
  | createMailbox path => exact ⟨Mailbox.Store.owned_create hc b.store, rfl⟩
  | addUser other =>
    refine ⟨rfl, Bool.eq_iff_iff.mpr ?_⟩
    have hne : user ≠ other := Ne.symm hc
    rw [answer, Account.Registry.contains_add, or_iff_right hne]
  | _ => exact Untouched.refl user b

end Backend

end MailServer.Service
