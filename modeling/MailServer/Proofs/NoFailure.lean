import MailServer.Proofs.Running
import MailServer.Replay

/-!
# No internal failure

A server whose configuration holds never fails for a reason of its own. Its limit on names admits the
default mailboxes, so that provisioning goes through; and the store in memory fails only in ways that
the rules foresee.

* `short_of_validate` — what a configuration that holds says about the default names.
* `replied_of_admits`, `replied_fine` — what is in a reply.
* `no_internal_failure` — every event of every run, and a single run from the command line.
-/

namespace MailServer.Server

open Http (Response)
open Service (Backend)
open Shared (Event)

/-- What holds of a configuration that is accepted. -/
theorem validate_iff {config : Config} : config.validate = .ok () ↔
    config.endpoint.toList.head? = some '/' ∧ Config.minNameLength ≤ config.maxNameLength.toNat ∧
      config.pathDelimiter.length = 1 := by
  unfold Config.validate
  split
  · rename_i hrelative
    simp [hrelative]
  rename_i habsolute
  split
  · rename_i hshort
    simp [not_le.mpr hshort]
  rename_i hlimit
  split
  · rename_i hdelimiter
    simp [hdelimiter]
  · rename_i hdelimiter
    exact iff_of_true rfl ⟨not_not.mp habsolute, not_lt.mp hlimit, not_not.mp hdelimiter⟩

/-- A configuration that holds admits the default names. -/
theorem short_of_validate {config : Config} (h : config.validate = .ok ()) :
    ∀ name ∈ Account.defaultMailboxes, name.length ≤ config.maxNameLength.toNat := by
  have hlongest : ∀ name ∈ Account.defaultMailboxes, name.length ≤ Config.minNameLength := by decide
  intro name hname
  exact (hlongest name hname).trans (validate_iff.mp h).2.1

theorem short_run {config : Config} (h : config.validate = .ok ()) (routes : Http.Routes)
    (events : List Event) : ∀ name ∈ Account.defaultMailboxes,
      name.length ≤ (run ⟨config, routes⟩ events (fresh ⟨config, routes⟩)).backend.store.limit := by
  rw [limit_run]
  exact short_of_validate h

/-- What a server consists of when it has started. -/
theorem eq_of_start {config : Config} {tokens : Http.Tokens} {hasLog : Bool} {readable : String → Bool}
    {server : Server} (h : (start (.ok config) tokens hasLog readable).1 = .ok server) :
    config.validate = .ok () ∧ server = ⟨config, apiRoutes config tokens⟩ := by
  unfold start check at h
  dsimp only at h
  cases hvalid : config.validate with
  | error cause =>
    rw [hvalid] at h
    cases h
  | ok u =>
    rw [hvalid] at h
    dsimp only at h
    split at h
    · cases h
    · rename_i config' hcheck
      split at hcheck
      · cases hcheck
        cases h
        exact ⟨rfl, rfl⟩
      · cases hcheck

@[simp] theorem status_apply (o : Http.Origins) (r : Response) : (o.apply r).status = r.status := rfl

@[simp] theorem body_apply (o : Http.Origins) (r : Response) : (o.apply r).body = r.body := rfl

section Replies

variable {config : Config} {tokens : Http.Tokens} {b : Backend} {r : Http.Request} {response : Response}

/-- No reply is an internal failure, and the answer to a POST that succeeds consists of results that are
none either. -/
theorem replied_fine (hshort : ∀ name ∈ Account.defaultMailboxes, name.length ≤ b.store.limit)
    (h : Replied config tokens b r response) :
    response.status ≠ 500 ∧ (r.method = .post → response.status = 200 → ∃ caller batch results,
      tokens.authenticate r = .ok caller ∧ Jmap.Batch.parse r.body = .ok batch ∧
      (Jmap.carried caller batch b).1 = .ok results ∧ Jmap.Shows response.body results ∧
      ∀ x ∈ results, ¬ x.IsServerFail) := by
  cases h with
  | @results caller batch results hadmits hcaller hbatch hresults =>
    obtain ⟨results', hsame, -, hfine, hreadable⟩ := carried_fine hshort caller batch
    cases hresults.symm.trans hsame
    exact ⟨show 200 ≠ 500 by decide, fun _ _ =>
      ⟨caller, batch, results, hcaller, hbatch, hresults, Jmap.shows_renderAll hreadable, hfine⟩⟩
  | undecoded => exact ⟨show 400 ≠ 500 by decide, nofun⟩
  | unauthenticated => exact ⟨show 401 ≠ 500 by decide, nofun⟩
  | unsupported => exact ⟨show 400 ≠ 500 by decide, nofun⟩
  | preflight hmethod =>
    exact ⟨show 200 ≠ 500 by decide, fun hpost => nomatch hpost.symm.trans hmethod⟩
  | notFound => exact ⟨show 404 ≠ 500 by decide, nofun⟩

/-- A request of a known sender that the endpoint takes is answered by its results, or is refused where
its body is no batch. -/
theorem replied_of_admits (hshort : ∀ name ∈ Account.defaultMailboxes, name.length ≤ b.store.limit)
    (h : Replied config tokens b r response) (hadmits : Admits config r)
    {caller : Caller} (hcaller : tokens.authenticate r = .ok caller) :
    (∀ batch, Jmap.Batch.parse r.body = .ok batch → response.status = 200 ∧
      ∃ results, (Jmap.carried caller batch b).1 = .ok results ∧ Jmap.Shows response.body results) ∧
    (∀ e, Jmap.Batch.parse r.body = .error e → response.status = 400 ∧ response.body = "") := by
  cases h with
  | @results caller' batch results _ hcaller' hbatch hresults =>
    cases hcaller.symm.trans hcaller'
    refine ⟨?_, fun e he => nomatch hbatch.symm.trans he⟩
    intro batch' hbatch'
    cases hbatch.symm.trans hbatch'
    obtain ⟨results', hsame, -, -, hreadable⟩ := carried_fine hshort caller batch
    cases hresults.symm.trans hsame
    exact ⟨rfl, results, hresults, Jmap.shows_renderAll hreadable⟩
  | undecoded _ _ hbatch => exact ⟨fun batch h => (nomatch hbatch.symm.trans h), fun _ _ => ⟨rfl, rfl⟩⟩
  | unauthenticated _ herror => exact nomatch hcaller.symm.trans herror
  | unsupported hnot => exact absurd hadmits hnot
  | preflight hoptions => exact nomatch hadmits.post.symm.trans hoptions
  | notFound hnot => exact absurd hadmits hnot

end Replies

/-! ## A single run -/

/-- The endpoint takes the request of a single run, whose sender is known. -/
theorem admits_request (config : Config) (body : List UInt8) :
    Admits config (Replay.request config body) ∧
      (Replay.tokens config).authenticate (Replay.request config body) =
        .ok ⟨config.localUser, config.delimiter⟩ := by
  refine ⟨⟨?_, ?_⟩, ?_⟩
  · simp [Http.Endpoint.isMatch, Http.Endpoint.covers, Replay.request]
  · rfl
  · rfl

theorem start_of_validate {config : Config} {tokens : Http.Tokens} {hasLog : Bool}
    {readable : String → Bool} (hvalid : config.validate = .ok ())
    (hlog : hasLog = true ∨ readable config.logFilter = true) :
    (start (.ok config) tokens hasLog readable).1 = .ok ⟨config, apiRoutes config tokens⟩ := by
  have hcheck : check (.ok config) hasLog readable = .ok config := by
    unfold check
    dsimp only
    rw [hvalid]
    exact if_pos (by simpa using hlog)
  rw [start, hcheck]

/-- What a single run does when its server has started: the reply of the routes in a fresh state. -/
theorem replay_of_load {arguments : List String} {environment : Config.Environment} {config : Config}
    {readable : String → Bool} (hload : Config.load arguments environment = .ok config)
    (hvalid : config.validate = .ok ()) (hfilter : readable config.logFilter = true) (input : List UInt8) :
    ∃ response, Replied config (Replay.tokens config)
        (.empty config.maxNameLength.toNat config.delimiter) (Replay.request config input) response ∧
      Replay.run arguments environment input readable =
        ⟨Replay.exitCode response.status, response.body⟩ := by
  obtain ⟨response, after, notes, hrun, -, hreply⟩ := exists_reply config (Replay.tokens config)
    (Replay.request config input) (b := .empty config.maxNameLength.toNat config.delimiter)
    (short_of_validate hvalid)
  refine ⟨response, hreply, ?_⟩
  unfold Replay.run
  rw [hload]
  dsimp only
  rw [start_of_validate hvalid (Or.inr hfilter)]
  dsimp only [Backend.run]
  rw [show Service.Script.run _ _ _ = _ from hrun]

/-! ## Every run -/

/-- **No internal failure can be reached.** Start a server on a configuration that holds, with a store
for it, and let anything happen; it starts where there is a log or the log filter can be read. Then no event
is classified by the fallback of a table. No request is answered by an internal failure, and the answer to a
POST that succeeds shows the results that its batch comes to, none of them a `serverFail`. A request of a
known sender that the endpoint takes succeeds if its body is a batch, and is refused with an empty body
otherwise. So a single run whose log filter can be read shows its results and exits with 0, or shows nothing
and exits with 2. -/
theorem no_internal_failure (config : Config) (readable : String → Bool)
    (hvalid : config.validate = .ok ()) :
    (∀ tokens hasLog,
      (hasLog = true ∨ readable config.logFilter = true →
        ∃ server, (start (.ok config) tokens hasLog readable).1 = .ok server) ∧
      ∀ server, (start (.ok config) tokens hasLog readable).1 = .ok server →
      ∀ events : List Event,
      let s := run server events server.fresh
      (∀ e event, .logged event ∈ (respond server s e).2.1 → event.source = .classify →
        ("rule", "fallback") ∉ event.fields) ∧
      ∀ r, ∃ response, (respond server s (.request r)).1 = .response response ∧
        response.status ≠ 500 ∧
        (r.method = .post → response.status = 200 → ∃ caller batch results,
          tokens.authenticate r = .ok caller ∧ Jmap.Batch.parse r.body = .ok batch ∧
          (Jmap.carried caller batch s.backend).1 = .ok results ∧ Jmap.Shows response.body results ∧
          ∀ x ∈ results, ¬ x.IsServerFail) ∧
        ∀ caller, Admits config r → tokens.authenticate r = .ok caller →
          (∀ batch, Jmap.Batch.parse r.body = .ok batch → response.status = 200 ∧
            ∃ results, (Jmap.carried caller batch s.backend).1 = .ok results ∧
              Jmap.Shows response.body results) ∧
          ∀ e, Jmap.Batch.parse r.body = .error e → response.status = 400 ∧ response.body = "") ∧
    (readable config.logFilter = true → ∀ arguments environment input,
      Config.load arguments environment = .ok config →
      (∀ batch, Jmap.Batch.parse input = .ok batch → ∃ results output,
        (Jmap.carried ⟨config.localUser, config.delimiter⟩ batch
          (.empty config.maxNameLength.toNat config.delimiter)).1 = .ok results ∧
        Replay.run arguments environment input readable = ⟨0, output⟩ ∧ Jmap.Shows output results) ∧
      ∀ e, Jmap.Batch.parse input = .error e →
        Replay.run arguments environment input readable = ⟨2, ""⟩) := by
  refine ⟨?_, ?_⟩
  -- the limit of the store is the configured one after any events, so provisioning never fails
  · intro tokens hasLog
    refine ⟨fun hlog => ⟨_, start_of_validate hvalid hlog⟩, ?_⟩
    intro server hstart events s
    obtain ⟨-, rfl⟩ := eq_of_start hstart
    have hshort : ∀ name ∈ Account.defaultMailboxes, name.length ≤ s.backend.store.limit :=
      short_run hvalid _ events
    refine ⟨?_, ?_⟩
    · intro e event hevent hsource
      exact expected_respond hshort e _ hevent hsource
    · intro r
      obtain ⟨response, after, notes, hrun, -, hreply⟩ := exists_reply config tokens r hshort
      obtain ⟨hstatus, hresults⟩ := replied_fine hshort hreply
      refine ⟨response, by rw [respond_request hrun], hstatus, hresults, ?_⟩
      intro caller hadmits hcaller
      exact replied_of_admits hshort hreply hadmits hcaller
  · intro hfilter arguments environment input hload
    obtain ⟨hadmits, hcaller⟩ := admits_request config input
    obtain ⟨response, hreply, hreplay⟩ := replay_of_load hload hvalid hfilter input
    obtain ⟨hresults, hrefused⟩ := replied_of_admits (short_of_validate hvalid) hreply hadmits hcaller
    refine ⟨?_, ?_⟩
    · intro batch hbatch
      obtain ⟨hstatus, results, hcarried, hshows⟩ := hresults batch hbatch
      refine ⟨results, response.body, hcarried, ?_, hshows⟩
      rw [hreplay, hstatus]
      rfl
    · intro e herror
      obtain ⟨hstatus, hbody⟩ := hrefused e herror
      rw [hreplay, hstatus, hbody]
      rfl

/-- The least limit, and a delimiter that is a letter of a default name. The log filter is the name of a
level. -/
theorem no_internal_failure_least_limit :
    let config : Config := { Config.standard with maxNameLength := 6, pathDelimiter := "n" }
    let readable : String → Bool := fun filter => filter ∈ ["off", "error", "warn", "info", "debug", "trace"]
    let tokens := (Http.Tokens.empty config.delimiter).register "token" "ann"
    let server : Server := ⟨config, apiRoutes config tokens⟩
    let events : List Event := [.command "ann" 0 ⟨"a1", .create, "Sent"⟩]
    let r : Http.Request :=
      ⟨.post, "/jmap", Http.Headers.empty.insert "Authorization" "Bearer token", [0x5B, 0x5D]⟩
    config.validate = .ok () ∧ readable config.logFilter = true ∧
    (start (.ok config) tokens false readable).1 = .ok server ∧
    (∃ response, (respond server (run server events server.fresh) (.request r)).1 = .response response ∧
      response.status = 200) ∧
    Config.load ["-m6", "-pn"] [] = .ok config ∧
    (∃ results output, Replay.run ["-m6", "-pn"] [] [0x5B, 0x5D] readable = ⟨0, output⟩ ∧
      Jmap.Shows output results) ∧
    (∃ e, Jmap.Batch.parse [0x5B] = .error e) ∧ Replay.run ["-m6", "-pn"] [] [0x5B] readable = ⟨2, ""⟩ := by
  intro config readable tokens server events r
  have hvalid : config.validate = .ok () := validate_iff.mpr (by decide +kernel)
  have hfilter : readable config.logFilter = true := by decide +kernel
  have hstart : (start (.ok config) tokens false readable).1 = .ok server :=
    start_of_validate hvalid (Or.inr hfilter)
  have hload : Config.load ["-m6", "-pn"] [] = .ok config := by rfl
  obtain ⟨hruns, hreplays⟩ := no_internal_failure config readable hvalid
  refine ⟨hvalid, hfilter, hstart, ?_, hload, ?_, ⟨_, rfl⟩, ?_⟩
  · obtain ⟨response, hresponse, -, -, hknown⟩ := ((hruns tokens false).2 server hstart events).2 r
    refine ⟨response, hresponse, ((hknown ⟨"ann", 'n'⟩ ⟨?_, ?_⟩ ?_).1 [] rfl).1⟩
    · decide +kernel
    · rfl
    · decide +kernel
  · obtain ⟨results, output, -, hrun, hshows⟩ := (hreplays hfilter _ _ [0x5B, 0x5D] hload).1 [] rfl
    exact ⟨results, output, hrun, hshows⟩
  · exact (hreplays hfilter _ _ [0x5B] hload).2 _ rfl

end MailServer.Server
