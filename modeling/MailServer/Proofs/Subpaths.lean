import MailServer.Proofs.Running
import MailServer.Proofs.Spelling
import MailServer.Replay

/-!
# Paths below the endpoint

The endpoint of a server stands for its path and for the paths below it. Where its path does not end in a
slash, a request is matched just where its path is one of these. Where it does end in one, the empty
component behind the slash has to be in the path of the request too: then `/jmap/` matches `/jmap//mail`,
but not `/jmap/mail`, and `/` matches hardly any path at all.

* `Below`, `Missed` — the paths below a path, and those of them that are not covered.
* `covers_iff`, `covers_iff_components`, `covers_iff_below` — the covered paths, as texts and as components.
* `matches_below_iff` — what the endpoint matches, and what the routes do with it.
-/

namespace MailServer.Http.Endpoint

open Text (pieces)

/-! ## Paths below a path -/

/-- A relative path behind a path, with one slash between them. -/
def join (path rest : List Char) : List Char :=
  if path.getLast? = some '/' then path ++ rest else path ++ '/' :: rest

/-- The path itself, or a path below it. -/
def Below (path target : List Char) : Prop := target = path ∨ ∃ rest, target = join path rest

/-- A path below one that ends in a slash, where no second slash follows. -/
def Missed (path target : List Char) : Prop :=
  path.getLast? = some '/' ∧ ∃ c rest, c ≠ '/' ∧ target = path ++ c :: rest

variable {path target : List Char}

theorem below_of_append (rest : List Char) : Below path (path ++ '/' :: rest) := by
  by_cases hlast : path.getLast? = some '/'
  · exact Or.inr ⟨'/' :: rest, (if_pos hlast).symm⟩
  · exact Or.inr ⟨rest, (if_neg hlast).symm⟩

theorem Missed.below (h : Missed path target) : Below path target := by
  obtain ⟨hlast, c, rest, -, rfl⟩ := h
  exact Or.inr ⟨c :: rest, (if_pos hlast).symm⟩

/-! ## Covered paths -/

theorem covers_iff :
    covers path target = true ↔ target = path ∨ ∃ rest, target = path ++ '/' :: rest := by
  have hbehind : path.isPrefixOf target = true ∧ (target.drop path.length).head? = some '/' ↔
      ∃ rest, target = path ++ '/' :: rest := by
    rw [List.isPrefixOf_iff_prefix]
    constructor
    · rintro ⟨⟨behind, rfl⟩, hslash⟩
      rw [List.drop_left] at hslash
      obtain ⟨rest, rfl⟩ := List.head?_eq_some_iff.mp hslash
      exact ⟨rest, rfl⟩
    · rintro ⟨rest, rfl⟩
      refine ⟨List.prefix_append _ _, ?_⟩
      rw [List.drop_left, List.head?_cons]
  rw [covers, Bool.or_eq_true, Bool.and_eq_true, beq_iff_eq, beq_iff_eq, hbehind]

theorem covers_iff_components :
    covers path target = true ↔ pieces (· == '/') path <+: pieces (· == '/') target := by
  rw [covers_iff]
  -- a slash at the end of the path makes an empty last component, which is asked for like the others
  constructor
  · rintro (rfl | ⟨rest, rfl⟩)
    · exact List.prefix_rfl
    · rw [Text.pieces_append]
      exact List.prefix_append _ _
  · rintro ⟨behind, hbehind⟩
    by_cases hnil : behind = []
    · rw [hnil, List.append_nil] at hbehind
      exact Or.inl (Text.pieces_injective '/' hbehind).symm
    · -- the components behind those of the path are the components of a text
      have hfree : ∀ c ∈ behind, '/' ∉ c := fun c hc =>
        Text.not_mem_of_mem_pieces (hbehind ▸ List.mem_append_right _ hc)
      refine Or.inr ⟨['/'].intercalate behind, Text.pieces_injective '/' ?_⟩
      rw [Text.pieces_append, Text.pieces_intercalate hnil hfree, hbehind]

theorem covers_iff_below : covers path target = true ↔ Below path target ∧ ¬ Missed path target := by
  rw [covers_iff]
  constructor
  · rintro (rfl | ⟨rest, rfl⟩)
    · refine ⟨Or.inl rfl, ?_⟩
      rintro ⟨-, c, rest, -, h⟩
      exact List.cons_ne_nil c rest (List.self_eq_append_right.mp h)
    · refine ⟨below_of_append rest, ?_⟩
      rintro ⟨-, c, other, hc, h⟩
      exact hc (List.cons.inj (List.append_cancel_left h)).1.symm
  · rintro ⟨rfl | ⟨rest, rfl⟩, hmissed⟩
    · exact Or.inl rfl
    · -- behind a slash at the end of the path the rest has to begin with a slash itself
      by_cases hlast : path.getLast? = some '/'
      · rw [join, if_pos hlast] at hmissed ⊢
        cases rest with
        | nil => exact Or.inl (List.append_nil path)
        | cons c rest =>
          have hslash : c = '/' := by
            by_contra hc
            exact hmissed ⟨hlast, c, rest, hc, rfl⟩
          exact Or.inr ⟨rest, hslash ▸ rfl⟩
      · exact Or.inr ⟨rest, if_neg hlast⟩

theorem forall_below_covers_iff :
    (∀ target, Below path target → covers path target = true) ↔ path.getLast? ≠ some '/' := by
  constructor
  · intro h hlast
    -- a single letter behind the slash is below the path, and it is missed
    have hmissed : Missed path (path ++ ['x']) := ⟨hlast, 'x', [], by decide, rfl⟩
    exact (covers_iff_below.mp (h _ hmissed.below)).2 hmissed
  · exact fun hlast target hbelow => covers_iff_below.mpr ⟨hbelow, fun hmissed => hlast hmissed.1⟩

end MailServer.Http.Endpoint

namespace MailServer.Server

open Http (Endpoint Version)
open Http.Endpoint (Below Missed)
open Text (pieces)

variable {config : Config} {r : Http.Request}

theorem isMatch_iff {m : Http.Method} {path : String} (h : r.method = m) :
    (Endpoint.mk m path).isMatch r = true ↔ Endpoint.covers path.toList r.path.toList = true := by
  rw [Endpoint.isMatch, Bool.and_eq_true, beq_iff_eq]
  exact and_iff_right h

theorem admits_iff (hpost : r.method = .post) (hversion : Version.ofRequest r = .ok .draft) :
    Admits config r ↔
      Below config.endpoint.toList r.path.toList ∧ ¬ Missed config.endpoint.toList r.path.toList := by
  rw [← Endpoint.covers_iff_below, ← isMatch_iff hpost]
  exact ⟨fun h => h.endpoint, fun h => ⟨h, hversion⟩⟩

/-- **What the endpoint matches.** A request with its method is matched just where its path begins with all
components of the endpoint's path. These are the endpoint's path and the paths below it, but for those that
are missed behind a slash at its end; so nothing below the endpoint is left out just where its path does not
end in a slash. The routes take a POST in the version served to the API just where it is matched, and find
nothing otherwise. -/
theorem matches_below_iff (config : Config) (tokens : Http.Tokens) :
    let path := config.endpoint.toList
    (∀ m (r : Http.Request), r.method = m →
      ((Endpoint.mk m config.endpoint).isMatch r = true ↔
        pieces (· == '/') path <+: pieces (· == '/') r.path.toList) ∧
      ((Endpoint.mk m config.endpoint).isMatch r = true ↔
        Below path r.path.toList ∧ ¬ Missed path r.path.toList)) ∧
    (∀ m, (∀ r : Http.Request, r.method = m → Below path r.path.toList →
        (Endpoint.mk m config.endpoint).isMatch r = true) ↔ path.getLast? ≠ some '/') ∧
    ∀ r : Http.Request, r.method = .post → Version.ofRequest r = .ok .draft →
      (Below path r.path.toList ∧ ¬ Missed path r.path.toList →
        (apiRoutes config tokens).dispatch r =
          (origins config).apply <$> (Jmap.stages tokens .mailboxMethods).handler r) ∧
      (¬ (Below path r.path.toList ∧ ¬ Missed path r.path.toList) →
        (apiRoutes config tokens).dispatch r = pure (.ofStatus 404)) := by
  intro path
  refine ⟨?_, ?_, ?_⟩
  · intro m r hmethod
    rw [isMatch_iff hmethod]
    exact ⟨Endpoint.covers_iff_components, Endpoint.covers_iff_below⟩
  · intro m
    rw [← Endpoint.forall_below_covers_iff]
    constructor
    · intro h target hbelow
      let r : Http.Request := ⟨m, String.ofList target, ⟨[]⟩, []⟩
      have hpath : r.path.toList = target := String.toList_ofList
      have hmatch := h r rfl (hpath.symm ▸ hbelow)
      rwa [isMatch_iff (r := r) rfl, hpath] at hmatch
    · exact fun h r hmethod hbelow => (isMatch_iff hmethod).mpr (h _ hbelow)
  · intro r hpost hversion
    rw [← admits_iff hpost hversion]
    exact ⟨dispatch_of_admits, dispatch_of_not_admits hpost hversion⟩

/-- By default the API is found below `/jmap`, and not behind other letters. -/
theorem matches_below_iff_standard :
    let config := Config.standard
    let tokens := Replay.tokens config
    let upload : Http.Request := ⟨.post, "/jmap/upload/1", ⟨[]⟩, []⟩
    let other : Http.Request := ⟨.post, "/jmapx", ⟨[]⟩, []⟩
    Below config.endpoint.toList upload.path.toList ∧ (Endpoint.mk .post config.endpoint).isMatch upload ∧
    (apiRoutes config tokens).dispatch upload =
      (origins config).apply <$> (Jmap.stages tokens .mailboxMethods).handler upload ∧
    ¬ Below config.endpoint.toList other.path.toList ∧
    (apiRoutes config tokens).dispatch other = pure (.ofStatus 404) := by
  intro config tokens upload other
  obtain ⟨-, hall, hroutes⟩ := matches_below_iff config tokens
  have hlast : config.endpoint.toList.getLast? ≠ some '/' := by decide
  have hupload : Below config.endpoint.toList upload.path.toList := Or.inr ⟨"upload/1".toList, by decide⟩
  have hother : ¬ Below config.endpoint.toList other.path.toList := fun hbelow =>
    absurd ((hall .post).mpr hlast other rfl hbelow) (by decide)
  exact ⟨hupload, (hall .post).mpr hlast upload rfl hupload,
    (hroutes upload rfl rfl).1 ⟨hupload, fun hmissed => hlast hmissed.1⟩, hother,
    (hroutes other rfl rfl).2 fun h => hother h.1⟩

/-- An endpoint that is accepted, a path below it, and a request for that path which is not matched. -/
theorem root_misses_jmap :
    let config : Config := { Config.standard with endpoint := "/" }
    let r : Http.Request := ⟨.post, "/jmap", ⟨[]⟩, []⟩
    config.validate = .ok () ∧ (∃ rest, r.path.toList = config.endpoint.toList ++ rest) ∧
    Below config.endpoint.toList r.path.toList ∧ (Endpoint.mk .post config.endpoint).isMatch r = false ∧
    (apiRoutes config (Replay.tokens config)).dispatch r = pure (.ofStatus 404) := by
  intro config r
  have hmatch : (Endpoint.mk .post config.endpoint).isMatch r = false := by decide
  have hrefused : ¬ Admits config r := fun h => Bool.false_ne_true (hmatch.symm.trans h.endpoint)
  exact ⟨by decide +kernel, ⟨"jmap".toList, by decide⟩, Or.inr ⟨"jmap".toList, by decide⟩, hmatch,
    dispatch_of_not_admits rfl rfl hrefused⟩

end MailServer.Server
