import MailServer.Proofs.Dialogue
import MailServer.Proofs.Listing
import MailServer.Proofs.NoFailure
import MailServer.Proofs.Roles

/-!
# The default mailboxes of a running server

A user whose request has succeeded has the default mailboxes. Whether they are shown and can be selected
under their names depends on the delimiter. Provisioning takes the names as they are, the store and the
listing split them at the delimiter, and `SELECT` splits what the client has written. A configuration
may have any character for a delimiter, letters of the default names included.

* `Spells` — the spellings under which a default mailbox is to be selected.
* `resolve_of_spells`, `not_mem_of_resolve` — when a spelling stands for the mailbox.
* `Serves` — a user is shown a default mailbox and can select it; `mem_listed_of_entry` reads an entry.
* `provisioned_of_ok` — a request that succeeds leaves its sender with the default mailboxes.
* `serves_default_iff` — which configurations serve a default mailbox; `sent_split` is one that does not.
-/

namespace MailServer.Text

theorem length_of_sameFolded {a b : String} (h : sameFolded a b = true) :
    a.toList.length = b.toList.length := by
  have hlength := congrArg List.length (sameFolded_iff.mp h)
  rwa [List.length_map, List.length_map] at hlength

theorem dropOneLast_cases (d : Char) (cs : List Char) :
    dropOneLast d cs = cs ∨ cs = dropOneLast d cs ++ [d] := by
  unfold dropOneLast
  split
  · rename_i front hcut
    exact Or.inr (append_of_cutLast hcut).1
  · exact Or.inl rfl

end MailServer.Text

namespace MailServer.Mailbox

/-! ## Spellings -/

/-- A text spells a name: it is the name, and for INBOX letter case is left open. -/
def Spells (name spelled : String) : Prop :=
  spelled = name ∨ (name = inbox ∧ Text.sameFolded spelled inbox = true)

variable {d : Char} {user spelled : String}

/-- A character is in no spelling if it is not in the name, letter case aside. -/
theorem Spells.not_mem {name : String} (h : Spells name spelled)
    (hd : d.toLower ∉ name.toList.map Char.toLower) : d ∉ spelled.toList := by
  have hsame : Text.sameFolded name spelled = true := by
    rcases h with rfl | ⟨rfl, hsame⟩
    · exact Text.sameFolded_refl spelled
    · exact Text.sameFolded_iff.mpr (Text.sameFolded_iff.mp hsame).symm
  exact fun hmem => hd (Text.toLower_mem_of_sameFolded hsame hmem)

theorem resolve_of_inbox (hsame : Text.sameFolded spelled inbox = true) (hd : d ∉ spelled.toList) :
    resolve ⟨user, d⟩ spelled = .ok ⟨user, inbox⟩ := by
  have hfolded := Text.sameFolded_iff.mp hsame
  have hnonempty : spelled.toList ≠ [] := by
    intro hnil
    rw [hnil] at hfolded
    cases hfolded
  have hunmarked : spelled.toList.head? ≠ some '#' := by
    intro hmark
    have hhead := congrArg List.head? hfolded
    rw [List.head?_map, hmark] at hhead
    revert hhead
    decide
  have hwhole : Text.dropOneLast d spelled.toList = spelled.toList := by
    rw [Text.dropOneLast, Text.cutLast_eq_none_iff.mpr hd]
  have hcheck : checkName d spelled.toList = none := by
    rw [checkName_eq_none_iff, Text.pieces_of_not_mem hd]
    exact ⟨by simpa using hnonempty, hunmarked⟩
  have hcanonical : canonicalName d spelled.toList = inbox.toList := by
    rw [canonicalName, Text.cutFirst_eq_none_iff.mpr hd]
    dsimp only
    rw [String.ofList_toList, if_pos hsame]
  refine resolve_ok_iff.mpr ⟨?_, ?_⟩
  · rw [hwhole, hcheck]
  · rw [hwhole, hcanonical, String.ofList_toList]

/-- A spelling without the delimiter stands for the default mailbox. -/
theorem resolve_of_spells {name : String} (hname : name ∈ Account.defaultMailboxes)
    (h : Spells name spelled) (hd : d ∉ spelled.toList) :
    resolve ⟨user, d⟩ spelled = .ok ⟨user, name⟩ := by
  rcases h with rfl | ⟨rfl, hsame⟩
  · exact resolve_of_canonical user (World.canonical_default hname hd)
  · exact resolve_of_inbox hsame hd

/-- The canonical form of a name has the delimiter where the name has it. -/
theorem mem_canonicalName {cs : List Char} (h : d ∈ cs) : d ∈ canonicalName d cs := by
  unfold canonicalName
  cases hcut : Text.cutFirst d cs with
  | none => exact absurd h (Text.cutFirst_eq_none_iff.mp hcut)
  | some cut =>
    dsimp only
    split
    · exact List.mem_append_right _ List.mem_cons_self
    · exact h

/-- A name of one component that stands for the inbox is a spelling of it. -/
theorem sameFolded_of_canonicalName {cs : List Char} (hd : d ∉ cs)
    (h : canonicalName d cs = inbox.toList) : Text.sameFolded (String.ofList cs) inbox = true := by
  rw [canonicalName, Text.cutFirst_eq_none_iff.mpr hd] at h
  dsimp only at h
  split at h
  · assumption
  · rw [h, String.ofList_toList]
    exact Text.sameFolded_refl inbox

/-- A spelling of INBOX that stands for the inbox is without the delimiter, if INBOX is. With one inside
it would have components; with one at its end, which is dropped, it would be too short. -/
theorem not_mem_of_resolve (hinbox : d ∉ inbox.toList) (hsame : Text.sameFolded spelled inbox = true)
    (h : resolve ⟨user, d⟩ spelled = .ok ⟨user, inbox⟩) : d ∉ spelled.toList := by
  intro hmem
  obtain ⟨-, hpath⟩ := resolve_ok_iff.mp h
  have hcanonical : canonicalName d (Text.dropOneLast d spelled.toList) = inbox.toList := by
    have hname := congrArg (fun p : Path => p.name.toList) hpath
    simpa using hname.symm
  have hdropped : d ∉ Text.dropOneLast d spelled.toList :=
    fun hd => hinbox (hcanonical ▸ mem_canonicalName hd)
  rcases Text.dropOneLast_cases d spelled.toList with hwhole | hend
  · exact hdropped (hwhole.symm ▸ hmem)
  · have hlength := Text.length_of_sameFolded hsame
    have hfront := Text.length_of_sameFolded (sameFolded_of_canonicalName hdropped hcanonical)
    rw [String.toList_ofList, ← hlength] at hfront
    have hlonger := congrArg List.length hend
    rw [List.length_append, List.length_singleton] at hlonger
    omega

theorem Path.not_mem_leaf (p : Path) (d : Char) : d ∉ (p.leaf d).toList := by
  unfold leaf
  cases hcut : Text.cutLast d p.name.toList with
  | none => exact Text.cutLast_eq_none_iff.mp hcut
  | some cut =>
    obtain ⟨front, last⟩ := cut
    dsimp only
    rw [String.toList_ofList]
    exact (Text.append_of_cutLast hcut).2

end MailServer.Mailbox

namespace MailServer.Imap.Command

open Service (Backend)
open Service.Backend

/-! ## Selecting -/

variable {tag name : String} {s : Session} {b : Backend}

theorem outcome_select {path : Mailbox.Path} {status : Mailbox.Status}
    (hresolve : Mailbox.resolve s.caller name = .ok path) (hstatus : b.store.status path = .ok status) :
    outcome (Command.process ⟨tag, .select, name⟩ s) b =
      ((s.select path status.messages, opened tag status), b) := by
  have hattempt : Backend.attempt (Command.attempt ⟨tag, .select, name⟩ s) b =
      (.ok (s.select path status.messages, opened tag status), b) := by
    refine (attempt_select _ s b).trans ?_
    dsimp only
    rw [hresolve]
    dsimp only
    rw [hstatus]
    rfl
  rw [outcome_process, hattempt]

/-- What is selected afterwards is what the name stands for. -/
theorem resolve_of_selected (hopen : s.Open b.store) {selection : Selection}
    (h : (outcome (Command.process ⟨tag, .select, name⟩ s) b).1.1.selected = some selection) :
    Mailbox.resolve s.caller name = .ok selection.path := by
  obtain ⟨after, news, line, state, houtcome, hway⟩ := answered ⟨tag, .select, name⟩ hopen
  rw [houtcome] at h
  cases hway with
  | refused => cases h
  | created hverb => cases hverb
  | selected _ hresolve _ =>
    cases h
    exact hresolve

end MailServer.Imap.Command

namespace MailServer.Server

open Account (Provisioned defaultMailboxes)
open Http (Response)
open Imap (Command Selection openingText)
open Jmap (View getMailboxes listed)
open Mailbox (Spells Store)
open Service (Backend)
open Service.Backend
open Shared (Event State)

/-! ## Serving a default mailbox -/

/-- A user is shown an entry for the mailbox, at the top, with its name and its role; and in every session
of the user a `SELECT` opens it under each spelling of the name, with the number and the messages of the
entry. -/
structure Serves (d : Char) (user name : String) (b : Backend) (id messages : UInt32) : Prop where
  shown : ∃ entries,
    attempt (getMailboxes.process (.object []) ⟨user, d⟩) b =
      (.ok (.object [("accountId", .string user), ("list", .array entries), ("notFound", .array [])]), b) ∧
    .object [("id", .string (toString id.toNat)), ("name", .string name), ("parentId", .null),
      ("role", .string (String.ofList (name.toList.map Char.toLower))),
      ("totalMessages", .number (.natural messages.toUInt64))] ∈ entries
  opens : ∀ spelled, Spells name spelled → ∀ tag (selected : Option Selection),
    let done := outcome (Command.process ⟨tag, .select, spelled⟩ ⟨⟨user, d⟩, selected⟩) b
    done.1.1.selected = some ⟨⟨user, name⟩, messages⟩ ∧ done.2 = b ∧
      done.1.2.map Imap.Response.render =
        openingText tag messages.toNat id.toNat (messages + 1).toNat

section State

variable {d : Char} {user name : String} {b : Backend}

/-- A default mailbox that is there is served, if no spelling of its name has the delimiter. -/
theorem serves_of_contains (hsound : Store.Sound b.store) (hname : name ∈ defaultMailboxes)
    (hthere : b.store.contains ⟨user, name⟩ = true)
    (hd : ∀ spelled, Spells name spelled → d ∉ spelled.toList) :
    ∃ id messages, Serves d user name b id messages := by
  obtain ⟨e, he⟩ := Store.contains_iff.mp hthere
  have hplain : d ∉ name.toList := hd name (Or.inl rfl)
  have hmem : (⟨e.id, ⟨user, name⟩, e.messages⟩ : Mailbox.Listing) ∈ b.store.list user :=
    hsound.mem_list_iff.mpr ⟨rfl, e, he, rfl⟩
  have hcut : Text.cutLast d name.toList = none := Text.cutLast_eq_none_iff.mpr hplain
  have hstatus : b.store.status ⟨user, name⟩ = .ok ⟨e.messages, e.uidNext, e.id.number⟩ := by
    rw [Store.status, he]
  have hview : View.ofListing d (b.store.list user) ⟨e.id, ⟨user, name⟩, e.messages⟩ =
      ⟨e.id, name, none, some (Text.folded name), e.messages⟩ := by
    have hleaf : Mailbox.Path.leaf ⟨user, name⟩ d = name := by rw [Mailbox.Path.leaf, hcut]
    have hparent : Mailbox.Path.parent? ⟨user, name⟩ d = none := by
      rw [Mailbox.Path.parent?, hcut]
      rfl
    have hrole : Jmap.roleOf d name = some (Text.folded name) :=
      Jmap.roleOf_eq_some_iff.mpr ⟨hplain, ⟨name, hname, Text.sameFolded_refl name⟩, rfl⟩
    rw [View.ofListing, hleaf, hparent, hrole]
    rfl
  refine ⟨e.id.number, e.messages, ⟨_, Jmap.process_getMailboxes_all user d b, ?_⟩, ?_⟩
  · exact List.mem_map.mpr ⟨_, Jmap.mem_listed_iff.mpr ⟨_, hmem, hview⟩, rfl⟩
  · intro spelled hspelled tag selected done
    have hresolve : Mailbox.resolve ⟨user, d⟩ spelled = .ok ⟨user, name⟩ :=
      Mailbox.resolve_of_spells hname hspelled (hd spelled hspelled)
    have hdone : done = ((⟨⟨user, d⟩, some ⟨⟨user, name⟩, e.messages⟩⟩,
        Imap.opened tag ⟨e.messages, e.uidNext, e.id.number⟩), b) :=
      Command.outcome_select hresolve hstatus
    rw [hdone]
    refine ⟨rfl, rfl, ?_⟩
    rw [← hsound.counted _ e he]
    exact Imap.render_opened tag _

/-- An entry of the listing tells the name of a mailbox as it is shown. -/
theorem mem_listed_of_entry {entries : List Json.Value} {id parent role messages : Json.Value}
    (hanswer : attempt (getMailboxes.process (.object []) ⟨user, d⟩) b =
      (.ok (.object [("accountId", .string user), ("list", .array entries), ("notFound", .array [])]), b))
    (hentry : .object [("id", id), ("name", .string name), ("parentId", parent), ("role", role),
      ("totalMessages", messages)] ∈ entries) : ∃ v ∈ listed d user b.store, v.name = name := by
  have hsame := (Jmap.process_getMailboxes_all user d b).symm.trans hanswer
  simp only [Prod.mk.injEq, Except.ok.injEq, Json.Value.object.injEq, List.cons.injEq, Json.Value.array.injEq,
    true_and, and_true] at hsame
  rw [← hsame] at hentry
  obtain ⟨v, hv, hshown⟩ := List.mem_map.mp hentry
  refine ⟨v, hv, ?_⟩
  simp only [View.entry, Json.Value.object.injEq, List.cons.injEq, Prod.mk.injEq, Json.Value.string.injEq,
    true_and] at hshown
  exact hshown.2.1

/-- A mailbox that is served has no spelling with the delimiter: it is shown by its last component, and
selected where the spelling stands for it. -/
theorem Serves.not_mem {id messages : UInt32} (h : Serves d user name b id messages) {spelled : String}
    (hspelled : Spells name spelled) : d ∉ spelled.toList := by
  have hplain : d ∉ name.toList := by
    obtain ⟨entries, hanswer, hentry⟩ := h.shown
    obtain ⟨v, hv, rfl⟩ := mem_listed_of_entry hanswer hentry
    obtain ⟨m, -, rfl⟩ := Jmap.mem_listed_iff.mp hv
    exact m.path.not_mem_leaf d
  obtain ⟨hselected, -, -⟩ := h.opens spelled hspelled "" none
  -- INBOX itself is without the delimiter by now, but not yet its other spellings
  rcases hspelled with rfl | ⟨rfl, hsame⟩
  · exact hplain
  · have hresolve := Command.resolve_of_selected (s := ⟨⟨user, d⟩, none⟩) (fun _ h => nomatch h) hselected
    exact Mailbox.not_mem_of_resolve hplain hsame hresolve

end State

/-! ## Users whose request has succeeded -/

section Requests

variable {config : Config} {tokens : Http.Tokens}

/-- A request that the endpoint takes does what its batch comes to. -/
theorem state_of_admits {r : Http.Request} {caller : Caller} {batch : List Jmap.Invocation}
    (hadmits : Admits config r) (hcaller : tokens.authenticate r = .ok caller)
    (hbatch : Jmap.Batch.parse r.body = .ok batch) (b : Backend) :
    (outcome ((apiRoutes config tokens).dispatch r) b).2 = (Jmap.carried caller batch b).2 := by
  rw [dispatch_of_admits hadmits, outcome_map, Jmap.outcome_request hcaller hbatch]

/-- Where a batch is answered, its sender has everything. -/
theorem provisioned_of_carried {caller : Caller} {batch : List Jmap.Invocation} {b : Backend}
    {results : List Jmap.Result} (h : (Jmap.carried caller batch b).1 = .ok results) :
    Provisioned caller (Jmap.carried caller batch b).2 := by
  obtain ⟨between, hprovision, hprovisioned⟩ | ⟨e, after, hprovision, -⟩ :=
    Account.provision_cases caller b
  · rw [Jmap.carried_of_provision hprovision]
    obtain ⟨hstore, hregistry⟩ := Jmap.dispatched_keeps caller batch between
    exact hprovisioned.keeps hstore hregistry
  · rw [Jmap.carried_of_provision_error hprovision] at h
    cases h

/-- A POST that succeeds leaves its sender with the default mailboxes. -/
theorem provisioned_of_ok {s : State} {r : Http.Request} {response : Response}
    (hshort : ∀ name ∈ defaultMailboxes, name.length ≤ s.backend.store.limit) (hpost : r.method = .post)
    (hresponse : (respond ⟨config, apiRoutes config tokens⟩ s (.request r)).1 = .response response)
    (hok : response.status = 200) :
    ∃ caller, tokens.authenticate r = .ok caller ∧
      Provisioned caller (respond ⟨config, apiRoutes config tokens⟩ s (.request r)).2.2.backend := by
  obtain ⟨response', after, notes, hrun, -, hreply⟩ := exists_reply config tokens r hshort
  have hresponded : respond ⟨config, apiRoutes config tokens⟩ s (.request r) =
      (.response response', notes, { s with backend := after }) := respond_request hrun
  rw [hresponded] at hresponse ⊢
  cases hresponse
  -- of all replies to a POST only the results have status 200
  cases hreply with
  | results hadmits hcaller hbatch hresults =>
    have hstate := state_of_admits hadmits hcaller hbatch s.backend
    rw [outcome_of_runs hrun] at hstate
    refine ⟨_, hcaller, ?_⟩
    show Provisioned _ after
    rw [show after = _ from hstate]
    exact provisioned_of_carried hresults
  | undecoded => exact absurd hok (show ¬ 400 = 200 by decide)
  | unauthenticated => exact absurd hok (show ¬ 401 = 200 by decide)
  | unsupported => exact absurd hok (show ¬ 400 = 200 by decide)
  | preflight hoptions => exact nomatch hpost.symm.trans hoptions
  | notFound => exact absurd hok (show ¬ 404 = 200 by decide)

end Requests

/-- Among the events is a POST of the user that was answered with 200. -/
def Completed (tokens : Http.Tokens) (server : Server) (user : String) (events : List Event) : Prop :=
  ∃ before r after caller response, events = before ++ .request r :: after ∧ r.method = .post ∧
    tokens.authenticate r = .ok caller ∧ caller.user = user ∧
    (respond server (run server before server.fresh) (.request r)).1 = .response response ∧
    response.status = 200

/-- Such a user has the default mailboxes from then on. -/
theorem contains_of_completed {config : Config} {tokens : Http.Tokens} {user : String}
    {events : List Event} (hvalid : config.validate = .ok ())
    (h : Completed tokens ⟨config, apiRoutes config tokens⟩ user events) :
    ∀ name ∈ defaultMailboxes, (run ⟨config, apiRoutes config tokens⟩ events
      (fresh ⟨config, apiRoutes config tokens⟩)).backend.store.contains ⟨user, name⟩ = true := by
  obtain ⟨before, r, after, caller, response, rfl, hpost, hcaller, rfl, hresponse, hok⟩ := h
  obtain ⟨caller', hcaller', hprovisioned⟩ :=
    provisioned_of_ok (short_run hvalid _ before) hpost hresponse hok
  cases hcaller.symm.trans hcaller'
  intro name hname
  rw [run_append]
  exact (keeps_run _ after _).contains (hprovisioned.mailboxes name hname)

/-- A run with the one request of a single run. -/
theorem completed_request {config : Config} (hvalid : config.validate = .ok ()) (body : List UInt8)
    {batch : List Jmap.Invocation} (hbody : Jmap.Batch.parse body = .ok batch) :
    Completed (Replay.tokens config) ⟨config, apiRoutes config (Replay.tokens config)⟩ config.localUser
      [.request (Replay.request config body)] := by
  obtain ⟨hadmits, hcaller⟩ := admits_request config body
  obtain ⟨response, after, notes, hrun, -, hreply⟩ := exists_reply config (Replay.tokens config)
    (Replay.request config body) (b := .empty config.maxNameLength.toNat config.delimiter)
    (short_of_validate hvalid)
  refine ⟨[], _, [], _, response, rfl, rfl, hcaller, rfl, ?_, ?_⟩
  · exact congrArg Prod.fst (respond_request (s := fresh _) hrun)
  · exact ((replied_of_admits (short_of_validate hvalid) hreply hadmits hcaller).1 batch hbody).1

/-! ## Which configurations serve them -/

/-- **Serving a default mailbox.** A configuration that holds serves it to every user with a request that
has succeeded, in every state that can be reached from then on, if and only if its delimiter is in no
spelling of the name. -/
theorem serves_default_iff (config : Config) (readable : String → Bool)
    (hvalid : config.validate = .ok ()) :
    ∀ name ∈ defaultMailboxes,
      (∀ tokens hasLog server, tokens.delimiter = config.delimiter →
        (start (.ok config) tokens hasLog readable).1 = .ok server →
        ∀ events user, Completed tokens server user events → ∃ id messages,
          Serves config.delimiter user name (run server events server.fresh).backend id messages) ↔
      ∀ spelled, Spells name spelled → config.delimiter ∉ spelled.toList := by
  intro name hname
  constructor
  -- one request with an empty batch is enough to see a mailbox that is not served
  · intro hserves spelled hspelled
    obtain ⟨id, messages, hserved⟩ := hserves (Replay.tokens config) true _ rfl
      (start_of_validate hvalid (Or.inl rfl)) _ _ (completed_request hvalid [0x5B, 0x5D] rfl)
    exact hserved.not_mem hspelled
  · intro hd tokens hasLog server _ hstart events user hcompleted
    obtain ⟨-, rfl⟩ := eq_of_start hstart
    have hthere := contains_of_completed hvalid hcompleted name hname
    exact serves_of_contains (sound_run _ events) hname hthere hd

/-- The default configuration serves the default mailboxes. -/
theorem serves_default_iff_standard :
    let config := Config.standard
    let server : Server := ⟨config, apiRoutes config (Replay.tokens config)⟩
    let events : List Event := [.request (Replay.request config [0x5B, 0x5D])]
    config.validate = .ok () ∧ Completed (Replay.tokens config) server config.localUser events ∧
    ∀ name ∈ defaultMailboxes, ∃ id messages,
      Serves config.delimiter config.localUser name (run server events server.fresh).backend id messages := by
  intro config server events
  have hvalid : config.validate = .ok () := validate_iff.mpr (by decide +kernel)
  have hcompleted := completed_request hvalid [0x5B, 0x5D] rfl
  have hstart : (start (.ok config) (Replay.tokens config) true (· == "info")).1 = .ok server :=
    start_of_validate hvalid (Or.inl rfl)
  have hplain : ∀ name ∈ defaultMailboxes,
      config.delimiter.toLower ∉ name.toList.map Char.toLower := by decide +kernel
  refine ⟨hvalid, hcompleted, ?_⟩
  intro name hname
  have hd : ∀ spelled, Spells name spelled → config.delimiter ∉ spelled.toList :=
    fun spelled hspelled => hspelled.not_mem (hplain name hname)
  exact (serves_default_iff config (· == "info") hvalid name hname).mpr hd _ true server rfl hstart events _
    hcompleted

/-- A configuration whose delimiter is a letter of default names: after a request that has succeeded no
mailbox is shown as "Sent", and INBOX cannot be selected in lower case. -/
theorem sent_split :
    let config : Config := { Config.standard with pathDelimiter := "n" }
    let readable : String → Bool := (· == "info")
    let server : Server := ⟨config, apiRoutes config (Replay.tokens config)⟩
    let events : List Event := [.request (Replay.request config [0x5B, 0x5D])]
    let b := (run server events server.fresh).backend
    let entry (id name : String) (parent role : Json.Value) : Json.Value := .object [("id", .string id),
      ("name", .string name), ("parentId", parent), ("role", role), ("totalMessages", .number (.natural 0))]
    config.validate = .ok () ∧
    (start (.ok config) (Replay.tokens config) false readable).1 = .ok server ∧
    Completed (Replay.tokens config) server config.localUser events ∧
    attempt (getMailboxes.process (.object []) ⟨config.localUser, config.delimiter⟩) b =
      (.ok (.object [("accountId", .string config.localUser), ("list", .array [
        entry "6" "Drafts" .null (.string "drafts"), entry "1" "INBOX" .null (.string "inbox"),
        entry "2" "Outbox" .null (.string "outbox"), entry "3" "Se" .null .null,
        entry "4" "t" (.string "3") .null, entry "5" "Trash" .null (.string "trash")]),
        ("notFound", .array [])]), b) ∧
    (Imap.selectLines "a1" "inbox" (server.session config.localUser) b).map Imap.Response.render =
      ["a1 NO SELECT failed. No such mailbox."] := by
  intro config readable server events b entry
  have hvalid : config.validate = .ok () := validate_iff.mpr (by decide +kernel)
  have hlisted : listed config.delimiter config.localUser b.store = [
      ⟨⟨6⟩, "Drafts", none, some "drafts", 0⟩, ⟨⟨1⟩, "INBOX", none, some "inbox", 0⟩,
      ⟨⟨2⟩, "Outbox", none, some "outbox", 0⟩, ⟨⟨3⟩, "Se", none, none, 0⟩,
      ⟨⟨4⟩, "t", some ⟨3⟩, none, 0⟩, ⟨⟨5⟩, "Trash", none, some "trash", 0⟩] := by
    decide +kernel
  have hanswer := Jmap.process_getMailboxes_all config.localUser config.delimiter b
  rw [hlisted] at hanswer
  exact ⟨hvalid, start_of_validate hvalid (Or.inr (by decide +kernel)),
    completed_request hvalid [0x5B, 0x5D] rfl, hanswer, by decide +kernel⟩

end MailServer.Server
