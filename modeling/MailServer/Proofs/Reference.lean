import MailServer.Proofs.Growth
import MailServer.Proofs.Listing
import MailServer.Proofs.Name
import MailServer.Proofs.Utf8

/-!
# Creations against a reference

What becomes of the creations of a call can be told from the state before the call. A creation resolves to
a path on its own, and whatever encloses this path is there already; so each creation that is done adds its
own path and no other, and a path is taken where it was there before the call or an earlier creation has
the same.

* `Unresolvable`, `Resolves` — the path of a creation, from the mailboxes before the call.
* `Refusal`, `Fulfilled` — the ways of one creation, and of creations one after the other.
* `fulfilled_outcomesIn` — the creations of a call go one of these ways.
* `Fulfilled.contains`, `Fulfilled.entries_perm`, `Fulfilled.created_eq` — the store after it, and the numbers.
* `setMailboxes_follows_reference` — the outcome of a call.
-/

namespace MailServer.Mailbox

/-! ## Names of one component -/

section Component

variable {user name : String} {d : Char} (hname : name ≠ "") (hd : d ∉ name.toList)
include hname hd

theorem dropOneLast_component : Text.dropOneLast d name.toList = name.toList := by
  refine dropOneLast_of_components ?_
  rw [Text.pieces_of_not_mem hd, List.forall_mem_singleton]
  simpa using hname

theorem checkName_component : checkName d name.toList = none ↔ name.toList.head? ≠ some '#' := by
  rw [checkName_eq_none_iff, Text.pieces_of_not_mem hd, List.forall_mem_singleton]
  exact and_iff_right (by simpa using hname)

/-- A name of one component stands for itself, or for the inbox. -/
theorem resolve_component (hmark : name.toList.head? ≠ some '#') :
    resolve ⟨user, d⟩ name = .ok ⟨user, if Text.sameFolded name inbox then inbox else name⟩ := by
  have hcanonical : String.ofList (canonicalName d name.toList) =
      if Text.sameFolded name inbox then inbox else name := by
    rw [canonicalName, Text.cutFirst_eq_none_iff.mpr hd]
    dsimp only
    rw [String.ofList_toList]
    split
    · exact String.ofList_toList
    · exact String.ofList_toList
  rw [← hcanonical]
  unfold resolve
  dsimp only
  rw [dropOneLast_component hname hd, (checkName_component hname hd).mpr hmark]

theorem exists_error_of_resolve_component (hmark : name.toList.head? = some '#') :
    ∃ cause, resolve ⟨user, d⟩ name = .error cause := by
  unfold resolve
  dsimp only
  rw [dropOneLast_component hname hd]
  cases hcheck : checkName d name.toList with
  | none => exact absurd hmark ((checkName_component hname hd).mp hcheck)
  | some reason => exact ⟨_, rfl⟩

end Component

end MailServer.Mailbox

namespace MailServer.Jmap

open Json (Value)
open Mailbox (Id Listing Path Store inbox)
open Service (Backend)
open Service.Backend

/-! ## The path of a creation -/

/-- The creation has no path: its name is no component, its parent is no mailbox of the user, or its name
begins like a namespace. -/
inductive Unresolvable (d : Char) (user : String) (s : Store) (c : Creation) : Prop
  | nameless (h : c.name = "")
  | delimited (h : d ∈ c.name.toList)
  | orphan {id : String} (hparent : c.parentId = some id)
      (h : ∀ name e, s.entryAt? ⟨user, name⟩ = some e → e.id.render ≠ id)
  | marked (hparent : c.parentId = none) (h : c.name.toList.head? = some '#')

/-- The path of a creation: inside its parent, or at the top, where the inbox has its own spelling. -/
inductive Resolves (d : Char) (user : String) (s : Store) (c : Creation) : Path → Prop
  | top (h : ¬ Unresolvable d user s c) (hparent : c.parentId = none) :
      Resolves d user s c ⟨user, if Text.sameFolded c.name inbox then inbox else c.name⟩
  | inside {id : String} {m : Listing} (h : ¬ Unresolvable d user s c) (hparent : c.parentId = some id)
      (hm : findById? (s.list user) id = some m) :
      Resolves d user s c ⟨user, m.path.name ++ String.singleton d ++ c.name⟩

section Paths

variable {d : Char} {user : String} {s : Store} {c : Creation} {p : Path}

theorem Resolves.resolvable (h : Resolves d user s c p) : ¬ Unresolvable d user s c := by
  cases h <;> assumption

theorem Resolves.unique {q : Path} (h : Resolves d user s c p) (h' : Resolves d user s c q) : p = q := by
  cases h with
  | top _ hparent =>
    cases h' with
    | top => rfl
    | inside _ hparent' => cases hparent.symm.trans hparent'
  | inside _ hparent hm =>
    cases h' with
    | top _ hparent' => cases hparent.symm.trans hparent'
    | inside _ hparent' hm' =>
      cases hparent.symm.trans hparent'
      cases hm.symm.trans hm'
      rfl

theorem Resolves.user_eq (h : Resolves d user s c p) : p.user = user := by
  cases h <;> rfl

/-- A mailbox inside a listed one is called by the two names. -/
theorem child_of_mem_list {m : Listing} (hm : m ∈ s.list user) (leaf : String) :
    m.path.child leaf d = ⟨user, m.path.name ++ String.singleton d ++ leaf⟩ := by
  obtain ⟨-, -, huser, -⟩ := Store.mem_list_iff.mp hm
  refine (Path.eq_sibling_iff.mpr ⟨huser.symm, ?_⟩).symm
  simp

/-- No mailbox of the user is listed under an id that none has. -/
theorem findById?_eq_none_iff (hs : Store.Sound s) {id : String} :
    findById? (s.list user) id = none ↔
      ∀ name e, s.entryAt? ⟨user, name⟩ = some e → e.id.render ≠ id := by
  unfold findById?
  rw [List.find?_eq_none]
  constructor
  · intro h name e he hid
    exact h ⟨e.id, ⟨user, name⟩, e.messages⟩ (hs.mem_list_iff.mpr ⟨rfl, e, he, rfl⟩) (by simpa using hid)
  · intro h m hm hid
    obtain ⟨rfl, e, he, hlisted⟩ := hs.mem_list_iff.mp hm
    rw [hlisted] at hid
    exact h m.path.name e he (by simpa using hid)

variable (d user) in
/-- **The path of a creation** is found from the mailboxes before the call, or there is none. -/
theorem creationPath_cases (hs : Store.Sound s) (c : Creation) :
    (Unresolvable d user s c ∧ ∃ description, creationPath ⟨user, d⟩ (s.list user) c = .error description) ∨
    ∃ p, Resolves d user s c p ∧ creationPath ⟨user, d⟩ (s.list user) c = .ok p := by
  unfold creationPath
  split
  · rename_i hname
    refine Or.inl ⟨?_, _, rfl⟩
    rcases Bool.or_eq_true _ _ ▸ hname with hempty | hdelimited
    · exact .nameless (by simpa using hempty)
    · exact .delimited (by simpa using hdelimited)
  rename_i hname
  obtain ⟨hempty, hfree⟩ : c.name ≠ "" ∧ d ∉ c.name.toList := by simpa using hname
  cases hparent : c.parentId with
  | none =>
    dsimp only
    by_cases hmark : c.name.toList.head? = some '#'
    · obtain ⟨cause, hcause⟩ : ∃ cause, Mailbox.resolve ⟨user, d⟩ c.name = .error cause :=
        Mailbox.exists_error_of_resolve_component hempty hfree hmark
      rw [hcause]
      exact Or.inl ⟨.marked hparent hmark, _, rfl⟩
    · rw [Mailbox.resolve_component hempty hfree hmark]
      refine Or.inr ⟨_, .top ?_ hparent, rfl⟩
      rintro (h | h | ⟨h, -⟩ | ⟨-, h⟩)
      · exact hempty h
      · exact hfree h
      · cases hparent.symm.trans h
      · exact hmark h
  | some id =>
    dsimp only
    cases hfind : findById? (s.list user) id with
    | none => exact Or.inl ⟨.orphan hparent ((findById?_eq_none_iff hs).mp hfind), _, rfl⟩
    | some m =>
      have hm : m ∈ s.list user := List.mem_of_find?_eq_some hfind
      dsimp only
      rw [child_of_mem_list hm]
      refine Or.inr ⟨_, .inside ?_ hparent hfind, rfl⟩
      rintro (h | h | ⟨h, hnone⟩ | ⟨h, -⟩)
      · exact hempty h
      · exact hfree h
      · cases hparent.symm.trans h
        rw [(findById?_eq_none_iff hs).mpr hnone] at hfind
        cases hfind
      · cases hparent.symm.trans h

theorem creationPath_ok_iff (hs : Store.Sound s) :
    creationPath ⟨user, d⟩ (s.list user) c = .ok p ↔ Resolves d user s c p := by
  rcases creationPath_cases d user hs c with ⟨hnone, description, h⟩ | ⟨q, hq, h⟩
  · rw [h]
    exact ⟨nofun, fun hp => absurd hnone hp.resolvable⟩
  · rw [h]
    exact ⟨fun hp => Except.ok.inj hp ▸ hq, fun hp => congrArg Except.ok (hq.unique hp)⟩

theorem creationPath_error_iff (hs : Store.Sound s) :
    (∃ description, creationPath ⟨user, d⟩ (s.list user) c = .error description) ↔
      Unresolvable d user s c := by
  rcases creationPath_cases d user hs c with ⟨hnone, h⟩ | ⟨q, hq, h⟩
  · exact iff_of_true h hnone
  · rw [h]
    exact iff_of_false nofun hq.resolvable

/-- What encloses the path of a creation is there before the call: the parent, and what encloses it. -/
theorem Resolves.enclosed (h : Resolves d user s c p) (hs : Store.Sound s) (hd : s.delimiter = d)
    (hinbox : d ∉ inbox.toList) : ∀ a ∈ p.ancestors d, s.contains a = true := by
  have hfree : d ∉ c.name.toList := fun hmem => h.resolvable (.delimited hmem)
  cases h with
  | top =>
    rw [Path.ancestors_eq_nil]
    · exact nofun
    · dsimp only
      split
      · exact hinbox
      · exact hfree
  | @inside id m _ _ hm =>
    have hm : m ∈ s.list user := List.mem_of_find?_eq_some hm
    rw [← child_of_mem_list hm, Path.ancestors_child hfree]
    have hthere := Store.contains_of_mem_list hm
    intro a ha
    rcases List.mem_append.mp ha with ha | ha
    · exact hs.enclosed _ hthere a (hd ▸ ha)
    · exact List.mem_singleton.mp ha ▸ hthere

end Paths

/-! ## Creations one after the other -/

/-- The outcome of a creation that leaves the store as it is, where `path` gives the paths of creations. -/
inductive Refusal (path : Creation → Except String Path) (s : Store) (c : Creation) : Outcome → Prop
  | pathless {description : String} (h : path c = .error description) : Refusal path s c (.invalid description)
  | long {p : Path} (h : path c = .ok p) (hlong : s.limit < p.name.length) :
      Refusal path s c (.invalid (Mailbox.Error.nameTooLong p.name s.limit).message)
  | taken {p : Path} (h : path c = .ok p) (hshort : p.name.length ≤ s.limit) (hthere : s.contains p = true) :
      Refusal path s c (.notCreated "mailboxExists" (Mailbox.Error.alreadyExists p.render).message)

/-- Creations one after the other, from one store to another: their outcomes, and the paths that are added,
each under the id of its creation. -/
inductive Fulfilled (path : Creation → Except String Path) :
    List (String × Creation) → Store → List (String × Outcome) → List (String × Path) → Store → Prop
  | nil (s : Store) : Fulfilled path [] s [] [] s
  | refused {key : String} {c : Creation} {o : Outcome} {creations : List (String × Creation)} {s t : Store}
      {outcomes : List (String × Outcome)} {made : List (String × Path)} (h : Refusal path s c o)
      (rest : Fulfilled path creations s outcomes made t) :
      Fulfilled path ((key, c) :: creations) s ((key, o) :: outcomes) made t
  | created {key : String} {c : Creation} {p : Path} {creations : List (String × Creation)} {s t : Store}
      {outcomes : List (String × Outcome)} {made : List (String × Path)} (h : path c = .ok p)
      (hshort : p.name.length ≤ s.limit) (hnew : ¬ s.contains p = true)
      (rest : Fulfilled path creations (s.add p) outcomes made t) :
      Fulfilled path ((key, c) :: creations) s ((key, .created ⟨s.lastId + 1⟩) :: outcomes)
        ((key, p) :: made) t

theorem Refusal.not_isCreated {path : Creation → Except String Path} {s : Store} {c : Creation} {o : Outcome}
    (h : Refusal path s c o) : o.isCreated = false := by
  cases h <;> rfl

/-- **The creations of a call** where everything that encloses their paths is there. Induction on the
creations; what is there stays there. -/
theorem fulfilled_outcomesIn {caller : Caller} {existing : List Listing}
    {creations : List (String × Creation)} {s : Store}
    (h : ∀ c p, creationPath caller existing c = .ok p → ∀ a ∈ p.ancestors s.delimiter, s.contains a = true) :
    ∃ made, Fulfilled (creationPath caller existing) creations s (outcomesIn caller existing creations s).1
      made (outcomesIn caller existing creations s).2 := by
  induction creations generalizing s with
  | nil => exact ⟨[], .nil s⟩
  | cons entry creations ih =>
    obtain ⟨key, c⟩ := entry
    obtain ⟨made, hsame⟩ := ih h
    unfold outcomesIn outcomeIn
    cases hpath : creationPath caller existing c with
    | error description => exact ⟨made, .refused (.pathless hpath) hsame⟩
    | ok p =>
      dsimp only
      rcases s.create_cases p with ⟨hlong, hcreate⟩ | ⟨hshort, hthere, hcreate⟩ | ⟨hshort, hnew, hcreate⟩
      · rw [hcreate]
        exact ⟨made, .refused (.long hpath hlong) hsame⟩
      · rw [hcreate]
        exact ⟨made, .refused (.taken hpath hshort hthere) hsame⟩
      · rw [hcreate, Store.grown_of_enclosed (h c p hpath)]
        -- the paths come from the listing before the call, so only the store has to be followed
        have hlater : ∀ c q, creationPath caller existing c = .ok q →
            ∀ a ∈ q.ancestors s.delimiter, (s.add p).contains a = true := fun c q hq a ha =>
          (Store.contains_add s p a).mpr (Or.inr (h c q hq a ha))
        obtain ⟨made, hrest⟩ := ih (s := s.add p) hlater
        exact ⟨(key, p) :: made, .created hpath hshort hnew hrest⟩

namespace Fulfilled

variable {path : Creation → Except String Path} {creations : List (String × Creation)} {s t : Store}
variable {outcomes : List (String × Outcome)} {made : List (String × Path)}

theorem keys (h : Fulfilled path creations s outcomes made t) :
    outcomes.map (·.1) = creations.map (·.1) := by
  induction h with
  | nil => rfl
  | refused _ _ ih => rw [List.map_cons, ih, List.map_cons]
  | created _ _ _ _ ih => rw [List.map_cons, ih, List.map_cons]

/-- The creations that are done have the numbers that come next, in their order. -/
theorem created_eq (h : Fulfilled path creations s outcomes made t) :
    outcomes.filter (·.2.isCreated) =
      (made.zipIdx 1).map fun m => (m.1.1, .created ⟨s.lastId + UInt32.ofNat m.2⟩) := by
  induction h with
  | nil => rfl
  | refused href _ ih => rw [List.filter_cons_of_neg (by simp [href.not_isCreated]), ih]
  | @created key c p _ s _ _ made _ _ _ _ ih =>
    have hnumbered := Store.numbered_cons (fun m n => (m.1, Outcome.created ⟨n⟩)) s.lastId (key, p) made
    rw [List.filter_cons_of_pos (by rfl), ih, hnumbered, Store.lastId_add]

theorem sorted_entries (h : Fulfilled path creations s outcomes made t) (hs : Keyed.Sorted s.entries) :
    Keyed.Sorted t.entries := by
  induction h with
  | nil => exact hs
  | refused _ _ ih => exact ih hs
  | created _ _ _ _ ih => exact ih (hs.insert _ _)

/-- A path that is added is that of its creation, and was not there before. -/
theorem of_mem_made (h : Fulfilled path creations s outcomes made t) {key : String} {p : Path}
    (hm : (key, p) ∈ made) : ∃ c, (key, c) ∈ creations ∧ path c = .ok p ∧ ¬ s.contains p = true := by
  induction h with
  | nil => cases hm
  | refused _ _ ih =>
    obtain ⟨c, hc, hp⟩ := ih hm
    exact ⟨c, List.mem_cons_of_mem _ hc, hp⟩
  | created hpath _ hnew _ ih =>
    rcases List.mem_cons.mp hm with heq | hm
    · cases heq
      exact ⟨_, List.mem_cons_self, hpath, hnew⟩
    · obtain ⟨c, hc, hp, hmissing⟩ := ih hm
      exact ⟨c, List.mem_cons_of_mem _ hc, hp, fun h => hmissing ((Store.contains_add ..).mpr (Or.inr h))⟩

/-- No path is added twice. -/
theorem nodup_made (h : Fulfilled path creations s outcomes made t) : (made.map (·.2)).Nodup := by
  induction h with
  | nil => exact List.nodup_nil
  | refused _ _ ih => exact ih
  | created _ _ _ rest ih =>
    refine List.nodup_cons.mpr ⟨fun hm => ?_, ih⟩
    obtain ⟨⟨key, q⟩, hq, rfl⟩ := List.mem_map.mp hm
    obtain ⟨c, -, -, hmissing⟩ := rest.of_mem_made hq
    exact hmissing ((Store.contains_add ..).mpr (Or.inl rfl))

/-- The paths are added one after the other. -/
theorem eq_foldl_add (h : Fulfilled path creations s outcomes made t) : t = (made.map (·.2)).foldl Store.add s := by
  induction h with
  | nil => rfl
  | refused _ _ ih => exact ih
  | created _ _ _ _ ih => exact ih

/-- As many numbers are given out as paths are added. -/
theorem lastId (h : Fulfilled path creations s outcomes made t) :
    t.lastId = s.lastId + UInt32.ofNat made.length := by
  rw [h.eq_foldl_add, Store.lastId_foldl_add, List.length_map]

/-- The store afterwards has what it had, and an empty mailbox at each path that is added. -/
theorem entries_perm (h : Fulfilled path creations s outcomes made t) :
    t.entries.Perm
      (s.entries ++ (made.zipIdx 1).map fun m => (m.1.2, ⟨⟨s.lastId + UInt32.ofNat m.2⟩, 0, 1⟩)) := by
  have hnew : ∀ p ∈ made.map (·.2), ¬ s.contains p = true := by
    intro p hp
    obtain ⟨m, hm, rfl⟩ := List.mem_map.mp hp
    obtain ⟨c, -, -, hmissing⟩ := h.of_mem_made hm
    exact hmissing
  have hadded := Store.entries_foldl_add h.nodup_made hnew
  rwa [← h.eq_foldl_add, List.zipIdx_map, List.map_map] at hadded

/-- What is there afterwards was there before, or a creation has it as its path. -/
theorem contains (h : Fulfilled path creations s outcomes made t) (q : Path) :
    t.contains q = true ↔
      s.contains q = true ∨ ∃ e ∈ creations, path e.2 = .ok q ∧ q.name.length ≤ s.limit := by
  induction h with
  | nil => simp
  | @refused _ c o _ s _ _ _ href _ ih =>
    -- the path of a creation that is refused is too long, or is there
    have hthere : path c = .ok q → q.name.length ≤ s.limit → s.contains q = true := by
      intro hpath hshort
      cases href with
      | pathless hnone => cases hnone.symm.trans hpath
      | long hok hlong =>
        cases hok.symm.trans hpath
        exact absurd hshort (not_le.mpr hlong)
      | taken hok _ hthere =>
        cases hok.symm.trans hpath
        exact hthere
    rw [ih]
    constructor
    · rintro (hq | ⟨e, he, hpath⟩)
      · exact Or.inl hq
      · exact Or.inr ⟨e, List.mem_cons_of_mem _ he, hpath⟩
    · rintro (hq | ⟨e, he, hpath, hshort⟩)
      · exact Or.inl hq
      · rcases List.mem_cons.mp he with rfl | he
        · exact Or.inl (hthere hpath hshort)
        · exact Or.inr ⟨e, he, hpath, hshort⟩
  | @created key c p _ s _ _ _ hpath hshort _ _ ih =>
    rw [ih, Store.contains_add, Store.limit_add]
    constructor
    · rintro ((rfl | hq) | ⟨e, he, hok⟩)
      · exact Or.inr ⟨(key, c), List.mem_cons_self, hpath, hshort⟩
      · exact Or.inl hq
      · exact Or.inr ⟨e, List.mem_cons_of_mem _ he, hok⟩
    · rintro (hq | ⟨e, he, hok, hfits⟩)
      · exact Or.inl (Or.inr hq)
      · rcases List.mem_cons.mp he with rfl | he
        · exact Or.inl (Or.inl (Except.ok.inj (hok.symm.trans hpath)))
        · exact Or.inr ⟨e, he, hok, hfits⟩

theorem settings (h : Fulfilled path creations s outcomes made t) :
    t.limit = s.limit ∧ t.delimiter = s.delimiter := by
  induction h with
  | nil => exact ⟨rfl, rfl⟩
  | refused _ _ ih => exact ih
  | created _ _ _ _ ih => exact ih

/-- A creation behind others meets the store that they leave. Induction on the others. -/
theorem at_split {before after : List (String × Creation)} {key : String} {c : Creation}
    (h : Fulfilled path (before ++ (key, c) :: after) s outcomes made t) :
    ∃ firsts added between o, Fulfilled path before s firsts added between ∧ (key, o) ∈ outcomes ∧
      (Refusal path between c o ∨ ∃ p id, path c = .ok p ∧ p.name.length ≤ between.limit ∧
        ¬ between.contains p = true ∧ o = .created id) := by
  induction before generalizing s outcomes made with
  | nil =>
    cases h with
    | @refused _ _ o _ _ _ _ _ href rest => exact ⟨[], [], s, o, .nil s, List.mem_cons_self, Or.inl href⟩
    | @created _ _ p _ _ _ _ _ hpath hshort hnew rest =>
      exact ⟨[], [], s, _, .nil s, List.mem_cons_self, Or.inr ⟨p, _, hpath, hshort, hnew, rfl⟩⟩
  | cons entry before ih =>
    cases h with
    | refused href rest =>
      obtain ⟨firsts, added, between, o, hfirsts, ho, hway⟩ := ih rest
      exact ⟨_, added, between, o, .refused href hfirsts, List.mem_cons_of_mem _ ho, hway⟩
    | created hpath hshort hnew rest =>
      obtain ⟨firsts, added, between, o, hfirsts, ho, hway⟩ := ih rest
      exact ⟨_, _, between, o, .created hpath hshort hnew hfirsts, List.mem_cons_of_mem _ ho, hway⟩

/-- The paths that are added stand under ids of creations, in their order. -/
theorem made_sublist (h : Fulfilled path creations s outcomes made t) :
    (made.map (·.1)).Sublist (creations.map (·.1)) := by
  induction h with
  | nil => exact List.Sublist.refl []
  | refused _ _ ih => exact ih.cons _
  | created _ _ _ _ ih => exact ih.cons_cons _

theorem sorted (h : Fulfilled path creations s outcomes made t) (hsorted : Keyed.Sorted creations) :
    Keyed.Sorted outcomes := by
  refine List.pairwise_map.mp ?_
  rw [h.keys]
  exact List.pairwise_map.mpr hsorted

end Fulfilled

/-! ## The outcome of a call -/

/-- The creation asks for nothing that can be created: it has no path, or one that is too long. -/
def Invalid (d : Char) (user : String) (s : Store) (c : Creation) : Prop :=
  Unresolvable d user s c ∨ ∃ p, Resolves d user s c p ∧ s.limit < p.name.length

/-- The path of the creation was there before the call, or is that of a creation with a smaller id. -/
def Taken (d : Char) (user : String) (s : Store) (creations : List (String × Creation)) (key : String)
    (c : Creation) : Prop :=
  ∃ p, Resolves d user s c p ∧ (s.contains p = true ∨
    ∃ key' c', (key', c') ∈ creations ∧ Text.utf8 key' < Text.utf8 key ∧ Resolves d user s c' p)

section Outcome

variable {d : Char} {user : String} {s t : Store} {creations : List (String × Creation)}
variable {outcomes : List (String × Outcome)} {made : List (String × Path)}

/-- A creation whose path is short enough asks for something that can be created. -/
theorem Resolves.not_invalid {c : Creation} {p : Path} (h : Resolves d user s c p)
    (hshort : p.name.length ≤ s.limit) : ¬ Invalid d user s c := by
  rintro (hnone | ⟨q, hq, hlong⟩)
  · exact h.resolvable hnone
  · exact absurd (h.unique hq ▸ hshort) (not_le.mpr hlong)

/-- Ids in the order of their bytes are in order. -/
theorem sorted_of_bytes {α : Type} {l : List (String × α)}
    (h : (l.map fun e => Text.utf8 e.1).Pairwise (· < ·)) : Keyed.Sorted l :=
  (List.pairwise_map.mp h).imp Text.utf8_lt_utf8_iff.mp

/-- The creations in front of one are those with smaller ids. -/
theorem mem_before_iff {before after : List (String × Creation)} {key key' : String} {c c' : Creation}
    (h : Keyed.Sorted (before ++ (key, c) :: after)) :
    (key', c') ∈ before ↔ (key', c') ∈ before ++ (key, c) :: after ∧ Text.utf8 key' < Text.utf8 key := by
  rw [Text.utf8_lt_utf8_iff]
  obtain ⟨-, hrest, hbelow⟩ := List.pairwise_append.mp h
  constructor
  · exact fun hmem => ⟨List.mem_append_left _ hmem, hbelow _ hmem (key, c) List.mem_cons_self⟩
  · rintro ⟨hmem, hlt⟩
    rcases List.mem_append.mp hmem with hmem | hmem
    · exact hmem
    · rcases List.mem_cons.mp hmem with heq | hmem
      · cases heq
        exact absurd hlt (lt_irrefl key)
      · exact absurd hlt (lt_asymm ((List.pairwise_cons.mp hrest).1 _ hmem))

/-- **The outcome of one creation** of a call, by the reference. -/
theorem Fulfilled.outcome (hs : Store.Sound s)
    (h : Fulfilled (creationPath ⟨user, d⟩ (s.list user)) creations s outcomes made t)
    (hsorted : Keyed.Sorted creations) {key : String} {c : Creation} (hmem : (key, c) ∈ creations) :
    ∃ o, (key, o) ∈ outcomes ∧
      ((∃ text, o = .notCreated "invalidArguments" text) ∧ Invalid d user s c ∨
      (∃ text, o = .notCreated "mailboxExists" text) ∧ ¬ Invalid d user s c ∧
        Taken d user s creations key c ∨
      (∃ id, o = .created id) ∧ ¬ Invalid d user s c ∧ ¬ Taken d user s creations key c) := by
  obtain ⟨before, after, rfl⟩ := List.append_of_mem hmem
  obtain ⟨firsts, added, between, o, hfirsts, ho, hway⟩ := h.at_split
  have hlimit : between.limit = s.limit := hfirsts.settings.1
  -- the store in front of the creation has what was there, and the paths of creations with smaller ids
  have htaken : ∀ {p}, Resolves d user s c p → p.name.length ≤ s.limit →
      (between.contains p = true ↔ Taken d user s (before ++ (key, c) :: after) key c) := by
    intro p hp hshort
    rw [hfirsts.contains p]
    constructor
    · rintro (hthere | ⟨⟨key', c'⟩, he, hpath, -⟩)
      · exact ⟨p, hp, Or.inl hthere⟩
      · obtain ⟨hmem', hlt⟩ := (mem_before_iff hsorted).mp he
        exact ⟨p, hp, Or.inr ⟨key', c', hmem', hlt, (creationPath_ok_iff hs).mp hpath⟩⟩
    · rintro ⟨q, hq, hthere⟩
      obtain rfl := hp.unique hq
      rcases hthere with hthere | ⟨key', c', hmem', hlt, hpath⟩
      · exact Or.inl hthere
      · exact Or.inr ⟨(key', c'), (mem_before_iff hsorted).mpr ⟨hmem', hlt⟩,
          (creationPath_ok_iff hs).mpr hpath, hshort⟩
  refine ⟨o, ho, ?_⟩
  rcases hway with href | ⟨p, id, hpath, hshort, hnew, rfl⟩
  · cases href with
    | pathless hnone =>
      exact Or.inl ⟨⟨_, rfl⟩, Or.inl ((creationPath_error_iff hs).mp ⟨_, hnone⟩)⟩
    | @long p hpath hlong =>
      exact Or.inl ⟨⟨_, rfl⟩, Or.inr ⟨p, (creationPath_ok_iff hs).mp hpath, hlimit ▸ hlong⟩⟩
    | taken hpath hshort hthere =>
      have hp := (creationPath_ok_iff hs).mp hpath
      rw [hlimit] at hshort
      exact Or.inr (Or.inl ⟨⟨_, rfl⟩, hp.not_invalid hshort, (htaken hp hshort).mp hthere⟩)
  · have hp := (creationPath_ok_iff hs).mp hpath
    rw [hlimit] at hshort
    exact Or.inr (Or.inr ⟨⟨id, rfl⟩, hp.not_invalid hshort, fun h => hnew ((htaken hp hshort).mpr h)⟩)

end Outcome

/-! ## The answer -/

section Answer

variable {outcomes : List (String × Outcome)}

/-- An outcome is shown where its kind is. -/
theorem refusal_mem_iff (h : Keyed.Sorted outcomes) {key type : String} {o : Outcome} (ho : (key, o) ∈ outcomes) :
    (∃ text, (key, refusal type text) ∈ membersOf (!·.isCreated) outcomes) ↔
      ∃ text, o = .notCreated type text := by
  constructor
  · rintro ⟨text, hmem⟩
    obtain ⟨o', ho', hkind, hvalue⟩ := mem_membersOf.mp hmem
    obtain rfl := h.eq_of_mem ho ho'
    cases o with
    | created id => cases hkind
    | notCreated type' text' =>
      rw [toValue_notCreated] at hvalue
      simp only [refusal, Value.object.injEq, List.cons.injEq, Prod.mk.injEq, Value.string.injEq, true_and,
        and_true] at hvalue
      exact ⟨text', congrArg (Outcome.notCreated · text') hvalue.2⟩
  · rintro ⟨text, rfl⟩
    exact ⟨text, mem_membersOf.mpr ⟨_, ho, rfl, toValue_notCreated type text⟩⟩

theorem created_mem_iff (h : Keyed.Sorted outcomes) {key : String} {o : Outcome} (ho : (key, o) ∈ outcomes) :
    key ∈ (membersOf (·.isCreated) outcomes).map (·.1) ↔ o.isCreated = true := by
  constructor
  · intro hmem
    obtain ⟨⟨key, v⟩, hv, rfl⟩ := List.mem_map.mp hmem
    obtain ⟨o', ho', hkind, -⟩ := mem_membersOf.mp hv
    exact h.eq_of_mem ho ho' ▸ hkind
  · exact fun hkind => List.mem_map.mpr ⟨(key, o.toValue), mem_membersOf.mpr ⟨o, ho, hkind, rfl⟩, rfl⟩

/-- The ids of the outcomes of both kinds are the ids of all outcomes. -/
theorem keys_membersOf (outcomes : List (String × Outcome)) :
    ((membersOf (·.isCreated) outcomes).map (·.1) ++ (membersOf (!·.isCreated) outcomes).map (·.1)).Perm
      (outcomes.map (·.1)) := by
  have hkeys : ∀ keep, (membersOf keep outcomes).map (·.1) = (outcomes.filter (keep ·.2)).map (·.1) := by
    intro keep
    rw [membersOf, List.map_map]
    rfl
  rw [hkeys, hkeys, ← List.map_append]
  exact (List.filter_append_perm (·.2.isCreated) outcomes).map _

end Answer

/-! ## Calls -/

section Calls

variable {caller : Caller} {existing listed : List Listing} {creations : List (String × Creation)} {s : Store}

/-- What the creations come to depends on their paths only. -/
theorem outcomesIn_congr (h : ∀ e ∈ creations, creationPath caller existing e.2 = creationPath caller listed e.2)
    (s : Store) : outcomesIn caller existing creations s = outcomesIn caller listed creations s := by
  induction creations generalizing s with
  | nil => rfl
  | cons e creations ih =>
    have hfirst : ∀ s, outcomeIn caller existing e.2 s = outcomeIn caller listed e.2 s := fun s => by
      rw [outcomeIn, h e List.mem_cons_self, outcomeIn]
    obtain ⟨key, c⟩ := e
    rw [outcomesIn, outcomesIn, hfirst]
    dsimp only
    rw [ih fun e he => h e (List.mem_cons_of_mem _ he)]

/-- Where no creation names a parent it does not matter that none were listed. -/
theorem creationPath_parentsIn {e : String × Creation} (he : e ∈ creations) :
    creationPath caller (parentsIn caller creations s) e.2 = creationPath caller (s.list caller.user) e.2 := by
  unfold parentsIn
  split
  · rfl
  · rename_i hnone
    have hparent : e.2.parentId = none := by
      rw [Bool.not_eq_true, List.any_eq_false] at hnone
      simpa using hnone e he
    unfold creationPath
    rw [hparent]

/-- A call is fulfilled in any sound store, if INBOX is a single component. -/
theorem exists_fulfilled (user : String) {d : Char} {b : Backend} (hs : Store.Sound b.store)
    (hd : b.store.delimiter = d) (hinbox : d ∉ inbox.toList) {v : Value}
    (hv : creationArguments v = .ok creations) :
    ∃ outcomes made after,
      Fulfilled (creationPath ⟨user, d⟩ (b.store.list user)) creations b.store outcomes made after ∧
      attempt (setMailboxes.process v ⟨user, d⟩) b = (.ok (creationValue user outcomes), { b with store := after }) := by
  have harguments : argumentsOf creationArguments v = .ok creations := by
    rw [argumentsOf, hv]
    rfl
  have henclosed : ∀ c p, creationPath ⟨user, d⟩ (b.store.list user) c = .ok p →
      ∀ a ∈ p.ancestors b.store.delimiter, b.store.contains a = true := fun c p hp =>
    hd.symm ▸ ((creationPath_ok_iff hs).mp hp).enclosed hs hd hinbox
  -- the parents are listed only where one is named, which makes no difference to the paths
  have hsame : outcomesIn ⟨user, d⟩ (parentsIn ⟨user, d⟩ creations b.store) creations b.store =
      outcomesIn ⟨user, d⟩ (b.store.list user) creations b.store :=
    outcomesIn_congr (fun e he => creationPath_parentsIn he) b.store
  obtain ⟨made, hfulfilled⟩ := fulfilled_outcomesIn henclosed
  refine ⟨_, made, _, hfulfilled, ?_⟩
  rw [process_setMailboxes, harguments]
  dsimp only
  rw [hsame]

/-- A number behind the last one is written as the sum. -/
theorem render_add {n : UInt32} {k most : Nat} (hk : k ≤ most) (hfew : n.toNat + most < 2 ^ 32) :
    (Id.mk (n + UInt32.ofNat k)).render = toString (n.toNat + k) := by
  have hnumber : (n + UInt32.ofNat k).toNat = n.toNat + k := Store.toNat_add_ofNat (by omega)
  exact congrArg (fun n : Nat => toString n) hnumber

/-- **A call against the reference.** In every state that creations and deliveries lead to from an empty
store, where INBOX is a single component: a call whose arguments are in order does not fail, and every
creation is answered under its id, either as created or as not. It is not created for its arguments just
where it has no path or one that is too long; else it is not created because there is such a mailbox just
where the path was there before the call, or is that of a creation with a smaller id in the order of bytes;
else it is created. The created mailboxes have the numbers that come next, in the order of the ids of their
creations. The store has what it had, and an empty mailbox for each that was created. -/
theorem setMailboxes_follows_reference (limit : Nat) (d : Char) (hinbox : d ∉ inbox.toList)
    (ops : List Store.Operation) (user : String) (registry : Account.Registry) (v : Value)
    (creations : List (String × Creation)) (hv : creationArguments v = .ok creations)
    (hsorted : (creations.map fun e => Text.utf8 e.1).Pairwise (· < ·))
    (hfew : (Store.run ops (.empty limit d)).lastId.toNat + creations.length < 2 ^ 32) :
    let s := Store.run ops (.empty limit d)
    ∃ (created notCreated : List (String × Value)) (made : List (String × Path)) (after : Store),
      attempt (setMailboxes.process v ⟨user, d⟩) ⟨s, registry⟩ =
        (.ok (.object [("accountId", .string user), ("created", .object created),
          ("notCreated", .object notCreated)]), ⟨after, registry⟩) ∧
      (created.map (·.1) ++ notCreated.map (·.1)).Perm (creations.map (·.1)) ∧
      (∀ key c, (key, c) ∈ creations →
        ((∃ text, (key, refusal "invalidArguments" text) ∈ notCreated) ↔ Invalid d user s c) ∧
        ((∃ text, (key, refusal "mailboxExists" text) ∈ notCreated) ↔
          ¬ Invalid d user s c ∧ Taken d user s creations key c) ∧
        (key ∈ created.map (·.1) ↔ ¬ Invalid d user s c ∧ ¬ Taken d user s creations key c)) ∧
      (made.map fun m => Text.utf8 m.1).Pairwise (· < ·) ∧
      (∀ key p, (key, p) ∈ made → ∃ c, (key, c) ∈ creations ∧ Resolves d user s c p) ∧
      created = ((made.zipIdx 1).map fun m =>
        (m.1.1, .object [("id", .string (toString (s.lastId.toNat + m.2)))])) ∧
      after.entries.Perm (s.entries ++ (made.zipIdx 1).map fun m =>
        (m.1.2, ⟨⟨s.lastId + UInt32.ofNat m.2⟩, 0, 1⟩)) ∧
      Keyed.Sorted after.entries ∧ after.limit = s.limit ∧ after.delimiter = s.delimiter ∧
      after.lastId = s.lastId + UInt32.ofNat made.length := by
  intro s
  have hs : Store.Sound s := Store.sound_run (Store.Sound.empty limit d) ops
  have hd : s.delimiter = d := (Store.keeps_run (.empty limit d) ops).delimiter
  have hkeys : Keyed.Sorted creations := sorted_of_bytes hsorted
  obtain ⟨outcomes, made, after, hfulfilled, hprocess⟩ :=
    exists_fulfilled user (b := ⟨s, registry⟩) hs hd hinbox hv
  have houtcomes := hfulfilled.sorted hkeys
  refine ⟨_, _, made, after, by rw [← creationValue_eq user houtcomes]; exact hprocess, ?_, ?_, ?_, ?_, ?_,
    hfulfilled.entries_perm, ?_, hfulfilled.settings.1, hfulfilled.settings.2, hfulfilled.lastId⟩
  · rw [← hfulfilled.keys]
    exact keys_membersOf outcomes
  · intro key c hmem
    obtain ⟨o, ho, hways⟩ := hfulfilled.outcome hs hkeys hmem
    rw [refusal_mem_iff houtcomes ho, refusal_mem_iff houtcomes ho, created_mem_iff houtcomes ho]
    rcases hways with ⟨⟨text, rfl⟩, hinvalid⟩ | ⟨⟨text, rfl⟩, hvalid, htaken⟩ | ⟨⟨id, rfl⟩, hvalid, hfree⟩
    · simp [hinvalid, Outcome.isCreated]
    · simp [hvalid, htaken, Outcome.isCreated]
    · simp [hvalid, hfree, Outcome.isCreated]
  · have hsub := hfulfilled.made_sublist.map Text.utf8
    rw [List.map_map, List.map_map] at hsub
    exact hsorted.sublist hsub
  · intro key p hm
    obtain ⟨c, hc, hpath, -⟩ := hfulfilled.of_mem_made hm
    exact ⟨c, hc, (creationPath_ok_iff hs).mp hpath⟩
  · have hlength : made.length ≤ creations.length := by simpa using hfulfilled.made_sublist.length_le
    rw [membersOf, hfulfilled.created_eq, List.map_map]
    refine List.map_congr_left fun m hm => ?_
    have hm : m.2 ≤ made.length := by
      have := List.snd_lt_of_mem_zipIdx hm
      omega
    have hrender := render_add (hm.trans hlength) hfew
    rw [← hrender]
    rfl
  · exact hfulfilled.sorted_entries hs.sorted

/-- Two creations of one call that both mean the inbox, in different spellings, and one inside a mailbox that
is there: the second of the two is too late. -/
theorem setMailboxes_follows_reference_inbox_twice :
    let ops : List Store.Operation := [.create ⟨"ann", "Work"⟩]
    let s := Store.run ops (.empty 255 '.')
    let v : Value := .object [("create", .object [("a", .object [("name", .string "inbox")]),
      ("b", .object [("name", .string "Inbox")]),
      ("c", .object [("name", .string "Plans"), ("parentId", .string "1")])])]
    let creations : List (String × Creation) :=
      [("a", ⟨"inbox", none⟩), ("b", ⟨"Inbox", none⟩), ("c", ⟨"Plans", some "1"⟩)]
    '.' ∉ inbox.toList ∧ creationArguments v = .ok creations ∧
    (creations.map fun e => Text.utf8 e.1).Pairwise (· < ·) ∧
    s.lastId.toNat + creations.length < 2 ^ 32 ∧
    ∃ (created notCreated : List (String × Value)) (after : Store),
      attempt (setMailboxes.process v ⟨"ann", '.'⟩) ⟨s, .empty⟩ =
        (.ok (.object [("accountId", .string "ann"), ("created", .object created),
          ("notCreated", .object notCreated)]), ⟨after, .empty⟩) ∧
      ∃ text, ("b", refusal "mailboxExists" text) ∈ notCreated := by
  intro ops s v creations
  have hinbox : '.' ∉ inbox.toList := by decide
  have hv : creationArguments v = .ok creations := rfl
  have hsorted : (creations.map fun e => Text.utf8 e.1).Pairwise (· < ·) := by decide
  have hfew : s.lastId.toNat + creations.length < 2 ^ 32 := by decide
  have htop : ∀ name ∈ ["inbox", "Inbox"], Resolves '.' "ann" s ⟨name, none⟩ ⟨"ann", inbox⟩ := by
    intro name hname
    have hfolded : name ≠ "" ∧ '.' ∉ name.toList ∧ name.toList.head? ≠ some '#' ∧
        Text.sameFolded name inbox = true := by
      revert name
      decide
    obtain ⟨hempty, hfree, hmark, hsame⟩ := hfolded
    have hresolvable : ¬ Unresolvable '.' "ann" s ⟨name, none⟩ := by
      rintro (h | h | ⟨h, -⟩ | ⟨-, h⟩)
      · exact hempty h
      · exact hfree h
      · cases h
      · exact hmark h
    have htop := Resolves.top hresolvable rfl
    rwa [if_pos hsame] at htop
  obtain ⟨created, notCreated, made, after, hprocess, -, hways, -⟩ :=
    setMailboxes_follows_reference 255 '.' hinbox ops "ann" .empty v creations hv hsorted hfew
  refine ⟨hinbox, hv, hsorted, hfew, created, notCreated, after, hprocess, ?_⟩
  have hpath := htop "Inbox" (by decide)
  refine (hways "b" ⟨"Inbox", none⟩ (by decide)).2.1.mpr ⟨hpath.not_invalid (by decide), _, hpath, Or.inr ?_⟩
  exact ⟨"a", ⟨"inbox", none⟩, by decide, by decide, htop "inbox" (by decide)⟩

end Calls

end MailServer.Jmap
