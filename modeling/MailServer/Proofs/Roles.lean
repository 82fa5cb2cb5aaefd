import Mathlib.Data.List.Nodup
import Mathlib.Data.List.Pairwise
import MailServer.Proofs.Listing
import MailServer.Proofs.World

/-!
# Roles of mailboxes

A mailbox at the top is shown with a role where its name is a default name. Names are compared without
case there; the store does not compare them so, and a resolved name has only INBOX in its canonical
spelling. So a mailbox may have a default name in another case beside the default mailbox itself.

* `roleOf_eq_some_iff` — the role of a name.
* `nodup_roles_iff`, `role_default_iff` — when roles tell mailboxes apart, and which mailboxes have one.
* `roles_unique_iff` — both in every state that can be reached; `roles_repeated` is a state in which two
  mailboxes are shown with one role.
-/

namespace MailServer.Text

theorem folded_eq_iff {a b : String} : folded a = folded b ↔ sameFolded a b = true := by
  rw [folded, folded, String.ofList_inj, sameFolded_iff]

/-- A character that is in a text is in every text of the same folding, but for its case. -/
theorem toLower_mem_of_sameFolded {a b : String} (h : sameFolded a b = true) {c : Char}
    (hc : c ∈ b.toList) : c.toLower ∈ a.toList.map Char.toLower := by
  rw [sameFolded_iff.mp h]
  exact List.mem_map_of_mem hc

end MailServer.Text

namespace MailServer.Jmap

open Account (defaultMailboxes)
open Mailbox (Canonical Listing Store)

/-! ## The role of a name -/

/-- A name has a role where it is a default name, letter case aside, and the role is the name folded. -/
theorem roleOf_eq_some_iff {d : Char} {name role : String} :
    roleOf d name = some role ↔ d ∉ name.toList ∧
      (∃ known ∈ defaultMailboxes, Text.sameFolded known name = true) ∧ role = Text.folded name := by
  unfold roleOf
  by_cases hd : name.toList.contains d = true
  · rw [if_pos hd]
    exact iff_of_false nofun fun h => h.1 (List.contains_iff_mem.mp hd)
  · rw [if_neg hd, and_iff_right (mt List.contains_iff_mem.mpr hd), Option.map_eq_some_iff]
    constructor
    · rintro ⟨known, hfind, rfl⟩
      have hsame : Text.sameFolded known name = true := by simpa using List.find?_some hfind
      exact ⟨⟨known, List.mem_of_find?_eq_some hfind, hsame⟩, Text.folded_eq_iff.mpr hsame⟩
    · rintro ⟨⟨known, hknown, hsame⟩, rfl⟩
      obtain ⟨first, hfirst⟩ : ∃ first, defaultMailboxes.find? (Text.sameFolded · name) = some first := by
        rw [← Option.isSome_iff_exists, List.find?_isSome]
        exact ⟨known, hknown, hsame⟩
      have hsame' : Text.sameFolded first name = true := by simpa using List.find?_some hfirst
      exact ⟨first, hfirst, Text.folded_eq_iff.mpr hsame'⟩

/-- Default names differ in more than case. -/
theorem eq_of_default {a b : String} (ha : a ∈ defaultMailboxes) (hb : b ∈ defaultMailboxes)
    (h : Text.sameFolded a b = true) : a = b := by
  have hall : ∀ a ∈ defaultMailboxes, ∀ b ∈ defaultMailboxes, Text.sameFolded a b = true → a = b := by
    decide
  exact hall a ha b hb h

section Shown

variable {d : Char} {user : String} {s : Store}

theorem nodup_list (h : Store.Sound s) : (s.list user).Nodup := by
  have hpaths : (s.list user).map (·.path) =
      (s.entries.filter fun entry => entry.1.user == user).map (·.1) := by
    rw [Store.list, List.map_map]
    rfl
  refine List.Nodup.of_map (·.path) ?_
  rw [hpaths]
  exact h.sorted.nodup_keys.sublist (List.filter_sublist.map _)

/-- The role "inbox" is shown of INBOX alone, as a resolved name spells it so. -/
theorem name_of_role_inbox (h : World.Named d s) {m : Listing} (hm : m ∈ s.list user)
    (hrole : roleOf d m.path.name = some "inbox") : m.path.name = Mailbox.inbox := by
  obtain ⟨hd, -, hfolded⟩ := roleOf_eq_some_iff.mp hrole
  have hcanonical : Canonical d m.path.name.toList := h.canonical m.path (Store.contains_of_mem_list hm)
  have hsame : Text.sameFolded (String.ofList m.path.name.toList) Mailbox.inbox = true := by
    rw [String.ofList_toList, ← Text.folded_eq_iff, ← hfolded]
    rfl
  have hinbox := hcanonical.inbox m.path.name.toList (by rw [Text.pieces_of_not_mem hd]; rfl) hsame
  exact String.toList_inj.mp hinbox

/-- A name that is a default name but for its case has a role, if the delimiter is no letter of it. -/
theorem roleOf_of_default
    (hd : ∀ known ∈ defaultMailboxes, d.toLower ∉ known.toList.map Char.toLower)
    {known name : String} (hknown : known ∈ defaultMailboxes)
    (hsame : Text.sameFolded known name = true) : roleOf d name = some (Text.folded known) := by
  have hname : d ∉ name.toList := fun h => hd known hknown (Text.toLower_mem_of_sameFolded hsame h)
  exact roleOf_eq_some_iff.mpr ⟨hname, ⟨known, hknown, hsame⟩, Text.folded_eq_iff.mpr hsame⟩

/-- Roles tell mailboxes apart where the default names do so, letter case aside. -/
theorem nodup_roles_iff (h : Store.Sound s)
    (hd : ∀ known ∈ defaultMailboxes, d.toLower ∉ known.toList.map Char.toLower) :
    ((listed d user s).filterMap (·.role)).Nodup ↔
      ∀ m ∈ s.list user, ∀ n ∈ s.list user, ∀ known ∈ defaultMailboxes,
        Text.sameFolded known m.path.name = true → Text.sameFolded known n.path.name = true →
        m.path.name = n.path.name := by
  have hroles : (listed d user s).filterMap (·.role) =
      (s.list user).filterMap fun m => roleOf d m.path.name := List.filterMap_map
  rw [hroles, List.Nodup, List.pairwise_filterMap]
  constructor
  · intro hpairwise m hm n hn known hknown hm' hn'
    have hsymm : Std.Symm fun m n : Listing => ∀ role, roleOf d m.path.name = some role →
        ∀ role', roleOf d n.path.name = some role' → role ≠ role' :=
      ⟨fun m n hr role hrole role' hrole' => (hr role' hrole' role hrole).symm⟩
    -- two listed mailboxes of different names are different, and so are their roles
    by_contra hne
    have hdistinct := hpairwise.forall hm hn fun hmn => hne (by rw [hmn])
    exact hdistinct _ (roleOf_of_default hd hknown hm') _ (roleOf_of_default hd hknown hn') rfl
  · intro hnames
    refine (nodup_list h).imp_of_mem ?_
    intro m n hm hn hne role hrole role' hrole' hsame
    obtain ⟨-, ⟨known, hknown, hm'⟩, rfl⟩ := roleOf_eq_some_iff.mp hrole
    obtain ⟨-, -, rfl⟩ := roleOf_eq_some_iff.mp hrole'
    have hn' : Text.sameFolded known n.path.name = true :=
      Text.folded_eq_iff.mp ((Text.folded_eq_iff.mpr hm').trans hsame)
    have huser : m.path.user = n.path.user :=
      (h.mem_list_iff.mp hm).1.trans (h.mem_list_iff.mp hn).1.symm
    have hpath : m.path = n.path := by
      show Mailbox.Path.mk m.path.user m.path.name = ⟨n.path.user, n.path.name⟩
      rw [huser, hnames m hm n hn known hknown hm' hn']
    exact hne (h.eq_of_mem_list hm hn hpath)

/-- Only default mailboxes have roles where no other name is a default name but for its case. -/
theorem role_default_iff
    (hd : ∀ known ∈ defaultMailboxes, d.toLower ∉ known.toList.map Char.toLower) (name : String) :
    (roleOf d name ≠ none → name ∈ defaultMailboxes) ↔
      ∀ known ∈ defaultMailboxes, Text.sameFolded known name = true → name = known := by
  constructor
  · intro hdefault known hknown hsame
    have hname : name ∈ defaultMailboxes := hdefault (by simp [roleOf_of_default hd hknown hsame])
    exact (eq_of_default hknown hname hsame).symm
  · intro hspelled hrole
    obtain ⟨role, hrole⟩ := Option.ne_none_iff_exists'.mp hrole
    obtain ⟨-, ⟨known, hknown, hsame⟩, -⟩ := roleOf_eq_some_iff.mp hrole
    rw [hspelled known hknown hsame]
    exact hknown

end Shown

end MailServer.Jmap

namespace MailServer.World

open Account (defaultMailboxes)
open Jmap (View getMailboxes listed)
open Mailbox (Store)
open Service.Backend

/-! ## Roles in every state -/

/-- **When roles tell mailboxes apart.** Let anything happen to a server whose delimiter is no letter of
a default name. Then a user who asks for all mailboxes is shown the role of the inbox for INBOX alone.
No role is shown twice where no two names are the same default name but for their case; and only default
mailboxes have roles where no name is a default name but for its case without being one. -/
theorem roles_unique_iff (limit : Nat) (tokens : Http.Tokens)
    (hd : ∀ known ∈ defaultMailboxes, tokens.delimiter.toLower ∉ known.toList.map Char.toLower)
    (events : List Event) (user : String) :
    let b := run tokens events (.empty limit tokens.delimiter)
    let views := listed tokens.delimiter user b.store
    let mailboxes := b.store.list user
    let shown := View.ofListing tokens.delimiter mailboxes
    attempt (getMailboxes.process (.object []) ⟨user, tokens.delimiter⟩) b =
      (.ok (.object [("accountId", .string user), ("list", .array (views.map View.entry)),
        ("notFound", .array [])]), b) ∧ views = mailboxes.map shown ∧
    (∀ m ∈ mailboxes, (shown m).role = some "inbox" → m.path.name = Mailbox.inbox) ∧
    ((views.filterMap (·.role)).Nodup ↔
      ∀ m ∈ mailboxes, ∀ n ∈ mailboxes, ∀ known ∈ defaultMailboxes,
        Text.sameFolded known m.path.name = true → Text.sameFolded known n.path.name = true →
        m.path.name = n.path.name) ∧
    ∀ m ∈ mailboxes, ((shown m).role ≠ none → m.path.name ∈ defaultMailboxes) ↔
      ∀ known ∈ defaultMailboxes, Text.sameFolded known m.path.name = true → m.path.name = known := by
  intro b views mailboxes shown
  have hplain : ∀ known ∈ defaultMailboxes, tokens.delimiter ∉ known.toList :=
    fun known hknown h => hd known hknown (List.mem_map_of_mem h)
  have hsound : Store.Sound b.store := sound_run tokens (Store.Sound.empty limit _) events
  have hnamed : Named tokens.delimiter b.store := named_run hplain events (Named.empty limit _)
  refine ⟨Jmap.process_getMailboxes_all user _ b, rfl, ?_, Jmap.nodup_roles_iff hsound hd, ?_⟩
  · intro m hm
    exact Jmap.name_of_role_inbox hnamed hm
  · intro m _
    exact Jmap.role_default_iff hd m.path.name

/-- The default mailboxes alone, and one inside INBOX that was asked for in another case. -/
theorem roles_unique_iff_provisioned :
    let tokens := (Http.Tokens.empty '.').register "token" "ann"
    let r : Http.Request :=
      ⟨.post, "/jmap", Http.Headers.empty.insert "Authorization" "Bearer token", [0x5B, 0x5D]⟩
    let events : List Event := [.request r, .command "ann" none ⟨"a1", .create, "inbox.Sent"⟩]
    let views := listed '.' "ann" (run tokens events (.empty 255 '.')).store
    (∀ known ∈ defaultMailboxes, tokens.delimiter.toLower ∉ known.toList.map Char.toLower) ∧
    views.map (·.name) = ["Drafts", "INBOX", "Sent", "Outbox", "Sent", "Trash"] ∧
    (views.filterMap (·.role)).Nodup := by
  intro tokens r events views
  have hd : ∀ known ∈ defaultMailboxes, tokens.delimiter.toLower ∉ known.toList.map Char.toLower := by
    decide +kernel
  obtain ⟨-, -, -, hunique, -⟩ := roles_unique_iff 255 tokens hd events "ann"
  refine ⟨hd, by decide +kernel, hunique.mpr ?_⟩
  decide +kernel

/-- Two mailboxes are made under a default name, one of them in lower case. Both are shown with its role. -/
theorem roles_repeated :
    let tokens := Http.Tokens.empty '.'
    let events : List Event :=
      [.command "ann" none ⟨"a1", .create, "sent"⟩, .command "ann" none ⟨"a2", .create, "Sent"⟩]
    let store := (run tokens events (.empty 255 '.')).store
    ¬ ((listed '.' "ann" store).filterMap (·.role)).Nodup ∧
    ∃ m ∈ store.list "ann", (View.ofListing '.' (store.list "ann") m).role ≠ none ∧
      m.path.name ∉ defaultMailboxes := by
  decide +kernel

end MailServer.World
