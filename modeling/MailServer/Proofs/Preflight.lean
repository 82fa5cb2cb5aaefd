import MailServer.Proofs.LastWrite

/-!
# What browsers send ahead

Every route that admits an origin is installed together with a route for the `OPTIONS` requests that browsers
send ahead of theirs. The two are found in different ways, the one by its version and the other without it,
so a request sent ahead may be answered by an installation other than the one that serves the request behind
it; but never by a later one.

* `Installation` — one call that installs a route; `Routes.install` — the table after any number of them.
* `find_of_ne_options`, `find_of_options` — the two ways of finding a route, both as a search among the
  installations.
* `dispatch_of_options` — the answer to what is sent ahead, which no handler has a part in.
* `exists_answering` — the installation that serves a request, and the one that answers ahead of it.
* `preflight_covers` — every request that is served is one that browsers may send ahead of.
-/

namespace MailServer.Http

open Service (Call Note Script)

/-! ## Installations -/

/-- What a route is installed with. -/
structure Installation where
  endpoint : Endpoint
  version : Version
  handler : Handler
  origins : Origins

namespace Installation

/-- The route to the handler. -/
def route (i : Installation) : Route := ⟨i.endpoint, i.version, i.origins.wrap i.handler⟩

/-- The route for what browsers send ahead. -/
def ahead (i : Installation) : Route := ⟨⟨.options, i.endpoint.path⟩, i.version, i.origins.wrap preflight⟩

/-- The path of the request is the path of the endpoint, or below it. -/
def covers (i : Installation) (r : Request) : Bool := Endpoint.covers i.endpoint.path.toList r.path.toList

/-- The handler serves the request, in the version that it asks for. -/
def Serves (i : Installation) (r : Request) : Prop :=
  Version.ofRequest r = .ok i.version ∧ i.endpoint.isMatch r = true

/-- All but the handler. -/
def settings (i : Installation) : Endpoint × Version × Origins := (i.endpoint, i.version, i.origins)

end Installation

/-- The table after the installations, one after the other. -/
def Routes.install (calls : List Installation) : Routes :=
  calls.foldl (fun t i => t.addWithPreflight i.endpoint i.version i.handler i.origins) .empty

/-- The answer to what is sent ahead is empty but for the fields that admit the origin. -/
structure Origins.Answers (o : Origins) (response : Response) : Prop where
  status : response.status = 200
  body : response.body = ""
  fields : response.headers.fields = Origins.admitting o.allowed

variable {calls : List Installation} {r : Request} {route : Route}

/-! ## Finding a route -/

theorem routes_install (calls : List Installation) :
    (Routes.install calls).routes = calls.flatMap fun i => [i.route, i.ahead] := by
  have hbehind : ∀ t : Routes,
      (calls.foldl (fun t i => t.addWithPreflight i.endpoint i.version i.handler i.origins) t).routes =
        t.routes ++ calls.flatMap fun i => [i.route, i.ahead] := by
    induction calls with
    | nil => exact fun t => (List.append_nil t.routes).symm
    | cons i later ih =>
      intro t
      rw [List.foldl_cons, ih, List.flatMap_cons, ← List.append_assoc]
      congr 1
      exact List.append_assoc _ _ _
  exact hbehind .empty

/-- Where of every installation only one route can be the one that is looked for, the search is one among
the installations. -/
theorem find?_routes {p : Route → Bool} {q : Installation → Bool} {side : Installation → Route}
    (h : ∀ i ∈ calls, [i.route, i.ahead].find? p = if q i then some (side i) else none) :
    (Routes.install calls).routes.find? p = (calls.find? q).map side := by
  rw [routes_install, List.find?_flatMap]
  induction calls with
  | nil => rfl
  | cons i later ih =>
    have hlater := ih fun j hj => h j (List.mem_cons_of_mem i hj)
    rw [List.findSome?_cons, h i List.mem_cons_self, List.find?_cons, hlater]
    cases q i <;> rfl

theorem isMatch_ahead (i : Installation) (r : Request) :
    i.ahead.endpoint.isMatch r = (r.method == .options && i.covers r) := rfl

theorem find_of_ne_options (hmethod : r.method ≠ .options) {version : Version}
    (hversion : Version.ofRequest r = .ok version) : (Routes.install calls).find r =
      .ok ((calls.find? fun i => i.version == version && i.endpoint.isMatch r).map Installation.route) := by
  rw [Routes.find, if_neg hmethod, hversion, ← find?_routes]
  · rfl
  · intro i _
    -- a request that is not sent ahead is none for the second route
    have hahead : i.ahead.endpoint.isMatch r = false := by
      rw [isMatch_ahead, beq_false_of_ne hmethod, Bool.false_and]
    have hroute : (i.route.version == version && i.route.endpoint.isMatch r) =
        (i.version == version && i.endpoint.isMatch r) := rfl
    rw [List.find?_cons, List.find?_singleton, hahead, hroute, Bool.and_false]
    cases i.version == version && i.endpoint.isMatch r <;> rfl

theorem find_of_options (hcalls : ∀ i ∈ calls, i.endpoint.method ≠ .options) (hmethod : r.method = .options) :
    (Routes.install calls).find r = .ok ((calls.find? (·.covers r)).map Installation.ahead) := by
  rw [Routes.find, if_pos hmethod, ← find?_routes]
  intro i hi
  -- a request that is sent ahead is none for the handler, whose method is another
  have hroute : i.route.endpoint.isMatch r = false := by
    have hother : (r.method == i.endpoint.method) = false :=
      beq_false_of_ne (hmethod ▸ (hcalls i hi).symm)
    exact (congrArg (· && i.covers r) hother).trans (Bool.false_and _)
  have hahead : i.ahead.endpoint.isMatch r = i.covers r := by
    rw [isMatch_ahead, hmethod, beq_self_eq_true, Bool.true_and]
  rw [List.find?_cons, List.find?_singleton, hroute, hahead]

/-- The route that is found belongs to the first installation that serves the request. -/
theorem served_of_find (hmethod : r.method ≠ .options)
    (h : (Routes.install calls).find r = .ok (some route)) :
    ∃ before i later, calls = before ++ i :: later ∧ route = i.route ∧ i.Serves r ∧
      ∀ j ∈ before, ¬ j.Serves r := by
  cases hversion : Version.ofRequest r with
  | error e =>
    rw [Routes.find, if_neg hmethod, hversion] at h
    cases h
  | ok version =>
    rw [find_of_ne_options hmethod hversion] at h
    obtain ⟨i, hi, rfl⟩ := Option.map_eq_some_iff.mp (Except.ok.inj h)
    obtain ⟨hserves, before, later, rfl, hbefore⟩ := List.find?_eq_some_iff_append.mp hi
    rw [Bool.and_eq_true, beq_iff_eq] at hserves
    refine ⟨before, i, later, rfl, rfl, ⟨hserves.1 ▸ hversion, hserves.2⟩, ?_⟩
    rintro j hj ⟨hasked, hmatch⟩
    have hnot := hbefore j hj
    rw [hmatch, Except.ok.inj (hversion.symm.trans hasked), beq_self_eq_true] at hnot
    cases hnot

theorem Installation.Serves.covers {i : Installation} (h : i.Serves r) : i.covers r = true :=
  (Bool.and_eq_true_iff.mp h.2).2

theorem routes_foldl_add (t : Routes) (more : List Route) :
    (more.foldl Routes.add t).routes = t.routes ++ more := by
  induction more generalizing t with
  | nil => exact (List.append_nil t.routes).symm
  | cons first more ih =>
    rw [List.foldl_cons, ih]
    exact List.append_assoc _ _ _

/-- Routes that are added behind others do not take a request away from these. -/
theorem find_foldl_add {t : Routes} (h : t.find r = .ok (some route)) (more : List Route) :
    (more.foldl Routes.add t).find r = .ok (some route) := by
  unfold Routes.find at h ⊢
  by_cases hmethod : r.method = .options
  · rw [if_pos hmethod] at h ⊢
    rw [routes_foldl_add, List.find?_append, Except.ok.inj h, Option.some_or]
  · rw [if_neg hmethod] at h ⊢
    cases hversion : Version.ofRequest r with
    | error e =>
      rw [hversion] at h
      cases h
    | ok version =>
      rw [hversion] at h
      have hfound := Except.ok.inj h
      rw [routes_foldl_add]
      show Except.ok _ = _
      rw [List.find?_append, hfound, Option.some_or]

/-! ## Answering -/

theorem answers_apply (o : Origins) : o.Answers (o.apply (.ofStatus 200)) :=
  have hadmitted := o.admitted_apply (.ofStatus 200)
  ⟨hadmitted.status, hadmitted.body, hadmitted.fields.trans (List.nil_append _)⟩

theorem handler_ahead (i : Installation) (r : Request) :
    i.ahead.handler r = pure (i.origins.apply (.ofStatus 200)) := map_pure i.origins.apply _

/-- What is sent ahead is answered without a call and without a note, by the origins of the first
installation that covers its path. -/
theorem dispatch_of_options (hcalls : ∀ i ∈ calls, i.endpoint.method ≠ .options)
    (hmethod : r.method = .options) : (Routes.install calls).dispatch r =
      pure (((calls.find? (·.covers r)).map (·.origins)).elim (.ofStatus 404)
        fun o => o.apply (.ofStatus 200)) := by
  rw [Routes.dispatch, find_of_options hcalls hmethod]
  cases calls.find? (·.covers r) with
  | none => rfl
  | some i =>
    rw [Option.map_some, Option.map_some, Option.elim_some]
    dsimp only
    rw [handler_ahead]

/-- Where an installation covers the path of a request, the first that does is none behind it. -/
theorem exists_first_covers (before later : List Installation) {i : Installation} (hi : i.covers r = true) :
    ∃ j ∈ before ++ [i], j.covers r = true ∧ (before ++ i :: later).find? (·.covers r) = some j := by
  obtain ⟨j, hj⟩ : ∃ j, (before ++ [i]).find? (·.covers r) = some j := by
    rw [← Option.isSome_iff_exists, List.find?_isSome]
    exact ⟨i, List.mem_concat_self, hi⟩
  have hcovers : j.covers r = true := List.find?_some (p := fun k : Installation => k.covers r) hj
  refine ⟨j, List.mem_of_find?_eq_some hj, hcovers, ?_⟩
  rw [List.append_cons, List.find?_append, hj, Option.some_or]

/-- What is sent ahead of a request that `i` serves is answered by an installation that is not behind `i`. -/
theorem exists_answering (hcalls : ∀ i ∈ calls, i.endpoint.method ≠ .options) (hmethod : r.method ≠ .options)
    (hfind : (Routes.install calls).find r = .ok (some route)) :
    ∃ before i later, calls = before ++ i :: later ∧ route = i.route ∧ i.Serves r ∧
      (∀ j ∈ before, ¬ j.Serves r) ∧
      ∃ j ∈ before ++ [i], j.covers r = true ∧ ∀ sent : Request, sent.method = .options →
        sent.path = r.path → (Routes.install calls).dispatch sent = pure (j.origins.apply (.ofStatus 200)) := by
  obtain ⟨before, i, later, rfl, hroute, hserves, hbefore⟩ := served_of_find hmethod hfind
  obtain ⟨j, hj, hcovers, hfirst⟩ := exists_first_covers before later hserves.covers
  refine ⟨before, i, later, rfl, hroute, hserves, hbefore, j, hj, hcovers, fun sent hsent hpath => ?_⟩
  have hsame : (fun k : Installation => k.covers sent) = fun k => k.covers r := by
    funext k
    rw [Installation.covers, hpath]
    rfl
  rw [dispatch_of_options hcalls hsent, hsame, hfirst, Option.map_some, Option.elim_some]

/-- What is sent ahead is answered by the settings of the installations. -/
theorem dispatch_of_settings {others : List Installation} (hcalls : ∀ i ∈ calls, i.endpoint.method ≠ .options)
    (hmethod : r.method = .options) (h : others.map Installation.settings = calls.map Installation.settings) :
    (Routes.install others).dispatch r = (Routes.install calls).dispatch r := by
  have hothers : ∀ i ∈ others, i.endpoint.method ≠ .options := by
    intro i hi
    obtain ⟨j, hj, hsame⟩ := List.mem_map.mp (h ▸ List.mem_map_of_mem hi)
    have hsent : j.endpoint.method = i.endpoint.method :=
      congrArg (fun settings : Endpoint × Version × Origins => settings.1.method) hsame
    exact hsent ▸ hcalls j hj
  have horigins : ∀ calls : List Installation, (calls.find? (·.covers r)).map (·.origins) =
      ((calls.map Installation.settings).find? fun settings =>
        Endpoint.covers settings.1.path.toList r.path.toList).map (·.2.2) := by
    intro calls
    rw [List.find?_map, Option.map_map]
    rfl
  rw [dispatch_of_options hothers hmethod, dispatch_of_options hcalls hmethod, horigins, horigins, h]

theorem Origins.Admitted.filter_fields {o : Origins} {inner outer : Response} (h : o.Admitted inner outer) :
    outer.headers.fields.filter (fun field => (Origins.admitting o.allowed).any (Headers.isNamed field.1)) =
      Origins.admitting o.allowed := by
  rw [h.fields, List.filter_append, List.filter_filter, List.filter_eq_nil_iff.mpr, List.nil_append,
    List.filter_eq_self.mpr]
  · exact fun own hown => List.any_eq_true.mpr ⟨own, hown, Text.sameFolded_refl own.1⟩
  · intro field _
    rw [Bool.and_not_self]
    exact Bool.false_ne_true

/-! ## Every table -/

/-- **Browsers may send ahead of every request that is served**, whatever the table was installed with. What
is sent ahead of a served request is answered at once, by the origins of an installation that covers its path
and was made no later than the one that serves the request; where all installations admit one origin, the
answer has just those fields that admit an origin in the response to the request. No handler has a part in
the answer to what is sent ahead: it is the same with any others in their places, and comes without a call.
And a route that was found is found in every longer table. -/
theorem preflight_covers (calls : List Installation) (hcalls : ∀ i ∈ calls, i.endpoint.method ≠ .options) :
    let t := Routes.install calls
    (∀ (r : Request) (route : Route), r.method ≠ .options → t.find r = .ok (some route) →
      ∃ before i later, calls = before ++ i :: later ∧ route = i.route ∧ i.Serves r ∧
        (∀ j ∈ before, ¬ j.Serves r) ∧
        ∃ j ∈ before ++ [i], j.covers r = true ∧ ∀ sent : Request, sent.method = .options →
          sent.path = r.path → ∃ response, t.dispatch sent = pure response ∧ j.origins.Answers response) ∧
    (∀ o : Origins, (∀ i ∈ calls, i.origins = o) → ∀ (r : Request) (route : Route), r.method ≠ .options →
      t.find r = .ok (some route) → ∀ sent : Request, sent.method = .options → sent.path = r.path →
        ∃ answered, t.dispatch sent = pure answered ∧
          ∀ {σ : Type} (answer : (c : Call) → σ → c.Reply × σ) (s after : σ) (response : Response)
            (notes : List Note), Script.Runs answer (t.dispatch r) s response after notes →
              response.headers.fields.filter
                  (fun field => (Origins.admitting o.allowed).any (Headers.isNamed field.1)) =
                answered.headers.fields) ∧
    (∀ r : Request, r.method = .options →
      (∃ response, t.dispatch r = pure response) ∧
      ∀ others : List Installation, others.map Installation.settings = calls.map Installation.settings →
        (Routes.install others).dispatch r = t.dispatch r) ∧
    (∀ (r : Request) (route : Route), t.find r = .ok (some route) → ∀ more : List Route,
      (more.foldl Routes.add t).find r = .ok (some route)) := by
  intro t
  refine ⟨?covered, ?same, ?sent, fun r route => find_foldl_add⟩
  case covered =>
    intro r route hmethod hfind
    obtain ⟨before, i, later, hsplit, hroute, hserves, hbefore, j, hj, hcovers, hanswer⟩ :=
      exists_answering hcalls hmethod hfind
    exact ⟨before, i, later, hsplit, hroute, hserves, hbefore, j, hj, hcovers,
      fun sent hsent hpath => ⟨_, hanswer sent hsent hpath, answers_apply j.origins⟩⟩
  case same =>
    intro o horigins r route hmethod hfind sent hsent hpath
    obtain ⟨before, i, later, hsplit, hroute, -, -, j, hj, -, hanswer⟩ :=
      exists_answering hcalls hmethod hfind
    have hone : ∀ k ∈ before ++ [i], k.origins = o := by
      intro k hk
      refine horigins k ?_
      rw [hsplit, List.append_cons]
      exact List.mem_append_left later hk
    rw [hone j hj] at hanswer
    refine ⟨_, hanswer sent hsent hpath, fun answer s after response notes hruns => ?_⟩
    -- the handler runs inside the route, and its response gets the fields of the one origin
    rw [Routes.dispatch, hfind] at hruns
    dsimp only at hruns
    rw [hroute, Installation.route, hone i List.mem_concat_self] at hruns
    obtain ⟨inner, s₁, notes₁, hinner⟩ := Script.runs_total answer (i.handler r) s
    obtain ⟨rfl, -, -⟩ := hruns.unique (hinner.map o.apply)
    rw [(o.admitted_apply inner).filter_fields, (answers_apply o).fields]
  case sent =>
    intro r hmethod
    exact ⟨⟨_, dispatch_of_options hcalls hmethod⟩, fun others => dispatch_of_settings hcalls hmethod⟩

/-- A path of the second installation lies below the path of the first, which is for another method and
another version. -/
theorem preflight_covers_below_another :
    let o : Origins := ⟨"https://mail.example"⟩
    let older : Installation := ⟨⟨.get, "/jmap"⟩, .rfc8621, fun _ => pure (.ofStatus 204), o⟩
    let newer : Installation := ⟨⟨.post, "/jmap/mail"⟩, .draft, fun _ => pure (.ofStatus 200), o⟩
    let calls := [older, newer]
    let t := Routes.install calls
    let r : Request := ⟨.post, "/jmap/mail/1", .empty, []⟩
    let sent : Request := ⟨.options, "/jmap/mail/1", .ofList [("Accept", "jmapVersion=none")], []⟩
    (∀ i ∈ calls, i.endpoint.method ≠ .options) ∧ t.find r = .ok (some newer.route) ∧
    (∃ i ∈ calls, ∃ answered, t.dispatch sent = pure answered ∧ i.origins.Answers answered) ∧
    ∃ answered response after notes, t.dispatch sent = pure answered ∧
      Script.Runs Service.Backend.answer (t.dispatch r) (.empty 20 '.') response after notes ∧
      response.headers.fields.filter
          (fun field => (Origins.admitting o.allowed).any (Headers.isNamed field.1)) =
        answered.headers.fields := by
  intro o older newer calls t r sent
  have hcalls : ∀ i ∈ calls, i.endpoint.method ≠ .options :=
    List.forall_mem_cons.mpr ⟨by decide, List.forall_mem_cons.mpr ⟨by decide, nofun⟩⟩
  have hone : ∀ i ∈ calls, i.origins = o :=
    List.forall_mem_cons.mpr ⟨rfl, List.forall_mem_cons.mpr ⟨rfl, nofun⟩⟩
  have hmethod : r.method ≠ .options := by decide
  have hserved : calls.find? (fun i => i.version == .draft && i.endpoint.isMatch r) = some newer := by
    rw [List.find?_cons_of_neg (by decide), List.find?_cons_of_pos (by decide)]
  have hfind : t.find r = .ok (some newer.route) :=
    (find_of_ne_options hmethod rfl).trans (by rw [hserved, Option.map_some])
  obtain ⟨hcovered, hsame, -, -⟩ := preflight_covers calls hcalls
  obtain ⟨before, i, later, hsplit, -, -, -, j, hj, -, hanswer⟩ := hcovered r _ hmethod hfind
  obtain ⟨answered, hdispatch, hfields⟩ := hsame o hone r _ hmethod hfind sent rfl rfl
  obtain ⟨response, after, notes, hruns⟩ :=
    Script.runs_total Service.Backend.answer (t.dispatch r) (.empty 20 '.')
  have hmem : j ∈ calls := by
    rw [hsplit, List.append_cons]
    exact List.mem_append_left later hj
  exact ⟨hcalls, hfind, ⟨j, hmem, hanswer sent rfl rfl⟩, answered, response, after, notes, hdispatch, hruns,
    hfields _ _ _ _ _ hruns⟩

end MailServer.Http
