import MailServer.Http.Credential
import MailServer.Proofs.Blank
import MailServer.Proofs.LastWrite
import MailServer.Proofs.Path

/-!
# Registered tokens

Whoever sends a request is known by the token that its `Authorization` field bears, alone or behind the name
of the scheme. Blanks around the field and around the token do not count, so there are many ways to send a
token; but nothing is read as a token that was not registered.

* `Bears`, `tokenOf?_eq_some_iff` — the token that a field bears, and that there is at most one.
* `Sends`, `Sends.bears` — the ways to send a token, and that the field bears it.
* `Tokens.ofList`, `LatestFor` — tokens registered one after the other, and the user a token stands for.
* `Tokens.authenticate_iff_registered` — who is known, and how one gets known.
-/

namespace MailServer.Http

open Headers (isNamed)
open Text (Blanks Padded isBlank sameFolded trimChars)

/-! ## What a field bears -/

/-- A field, without the blanks around it, bears a token: it is the token, and has no space in it, or it is
the scheme, a space and the token with blanks around it. -/
def Bears (cs token : List Char) : Prop :=
  (' ' ∉ cs ∧ token = cs) ∨
  ∃ scheme rest, cs = scheme ++ ' ' :: rest ∧ sameFolded (String.ofList scheme) "bearer" = true ∧
    token = trimChars rest

variable {cs scheme token : List Char}

/-- No letter of the scheme is a blank, in either case. -/
theorem not_isBlank_of_scheme (h : sameFolded (String.ofList scheme) "bearer" = true) :
    ∀ c ∈ scheme, isBlank c = false := by
  intro c hc
  rw [Text.sameFolded_iff, String.toList_ofList] at h
  have hletter : c.toLower ∈ "bearer".toList.map Char.toLower := h ▸ List.mem_map_of_mem hc
  have hletters : ∀ x ∈ "bearer".toList.map Char.toLower, isBlank x = false := by simp [isBlank]
  rw [← Text.isBlank_toLower]
  exact hletters _ hletter

theorem space_not_mem (h : ∀ c ∈ cs, isBlank c = false) : ' ' ∉ cs := fun hmem =>
  absurd (h ' ' hmem) (by decide)

/-- A field that is cut at its first space bears what is behind the space, or nothing. -/
theorem bears_iff : Bears cs token ↔
    match Text.cutFirst ' ' cs with
    | none => token = cs
    | some (scheme, rest) => sameFolded (String.ofList scheme) "bearer" = true ∧ token = trimChars rest := by
  cases hcut : Text.cutFirst ' ' cs with
  | none =>
    have hfree : ' ' ∉ cs := Text.cutFirst_eq_none_iff.mp hcut
    constructor
    · rintro (⟨-, rfl⟩ | ⟨scheme, rest, rfl, -, -⟩)
      · rfl
      · exact absurd (List.mem_append_right scheme List.mem_cons_self) hfree
    · exact fun htoken => Or.inl ⟨hfree, htoken⟩
  | some cut =>
    obtain ⟨scheme, rest⟩ := cut
    obtain ⟨rfl, -⟩ := Text.append_of_cutFirst hcut
    constructor
    · rintro (⟨hfree, -⟩ | ⟨scheme', rest', heq, hscheme, htoken⟩)
      · exact absurd (List.mem_append_right scheme List.mem_cons_self) hfree
      · -- the scheme has no space, so the two cuts are one
        have hcut' := Text.cutFirst_append (b := rest') (space_not_mem (not_isBlank_of_scheme hscheme))
        rw [← heq, hcut] at hcut'
        cases hcut'
        exact ⟨hscheme, htoken⟩
    · exact fun ⟨hscheme, htoken⟩ => Or.inr ⟨scheme, rest, rfl, hscheme, htoken⟩

theorem tokenOf?_eq_some_iff {field token : String} :
    tokenOf? field = some token ↔ token ≠ "" ∧ Bears (trimChars field.toList) token.toList := by
  have hcons : ∀ c cs, some (String.ofList (c :: cs)) = some token ↔ token ≠ "" ∧ token.toList = c :: cs := by
    intro c cs
    rw [Option.some.injEq, ← String.toList_inj, String.toList_ofList, eq_comm]
    refine (and_iff_right_of_imp fun htoken hempty => ?_).symm
    rw [hempty] at htoken
    cases htoken
  rw [tokenOf?, bears_iff]
  generalize trimChars field.toList = cs
  cases Text.cutFirst ' ' cs with
  | none =>
    cases cs with
    | nil => simp
    | cons c cs => exact hcons c cs
  | some cut =>
    obtain ⟨scheme, rest⟩ := cut
    dsimp only
    by_cases hscheme : sameFolded (String.ofList scheme) "bearer" = true
    · rw [if_pos hscheme, and_iff_right hscheme]
      cases trimChars rest with
      | nil => simp
      | cons c cs => exact hcons c cs
    · simp [hscheme]

/-! ## Sending a token -/

/-- The ways to send a token in a field. -/
inductive Sends (token : List Char) : List Char → Prop
  | alone {field : List Char} (hfield : Padded token field) : Sends token field
  | behind {field : List Char} (scheme gap : List Char)
      (hscheme : sameFolded (String.ofList scheme) "bearer" = true) (hgap : Blanks gap)
      (hfield : Padded (scheme ++ ' ' :: (gap ++ token)) field) : Sends token field

/-- A token without blanks is borne by every field that sends it. -/
theorem Sends.bears {field : List Char} (h : Sends token field) (hne : token ≠ [])
    (htoken : ∀ c ∈ token, isBlank c = false) : Bears (trimChars field) token := by
  have hlast : ∀ (front : List Char) c, (front ++ token).getLast? = some c → isBlank c = false := by
    intro front c hc
    rw [List.getLast?_append_of_ne_nil _ hne] at hc
    exact htoken c (List.mem_of_getLast? hc)
  have htrim : trimChars token = token :=
    Text.trimChars_of_ends (fun c hc => htoken c (List.mem_of_head? hc)) (hlast [])
  cases h with
  | alone hfield =>
    rw [hfield.trimChars_eq, htrim]
    exact Or.inl ⟨space_not_mem htoken, rfl⟩
  | behind scheme gap hscheme hgap hfield =>
    have hletters := not_isBlank_of_scheme hscheme
    have hends : trimChars (scheme ++ ' ' :: (gap ++ token)) = scheme ++ ' ' :: (gap ++ token) := by
      refine Text.trimChars_of_ends (fun c hc => ?_) (fun c hc => ?_)
      · cases scheme with
        | nil => cases hscheme
        | cons x scheme => exact hletters c (List.mem_of_head? hc)
      · exact hlast (scheme ++ ' ' :: gap) c (by simpa using hc)
    rw [hfield.trimChars_eq, hends]
    exact Or.inr ⟨scheme, gap ++ token, rfl, hscheme, by rw [(hgap.padded_append token).trimChars_eq, htrim]⟩

/-! ## Registered tokens -/

/-- The latest of the registrations of a token is for the user. -/
def LatestFor (registrations : List (String × String)) (token user : String) : Prop :=
  ∃ before after, registrations = before ++ (token, user) :: after ∧ ∀ r ∈ after, r.1 ≠ token

namespace Tokens

/-- The tokens after the registrations, one after the other. -/
def ofList (delimiter : Char) (registrations : List (String × String)) : Tokens :=
  registrations.foldl (fun t r => t.register r.1 r.2) (empty delimiter)

variable {t : Tokens} {d : Char} {registrations : List (String × String)} {r : Request} {caller : Caller}

theorem ofList_eq (d : Char) (registrations : List (String × String)) :
    ofList d registrations = ⟨registrations.reverse, d⟩ := by
  induction registrations using List.reverseRecOn with
  | nil => rfl
  | append_singleton before own ih =>
    have hlast : ofList d (before ++ [own]) = (ofList d before).register own.1 own.2 := by
      rw [ofList, List.foldl_append]
      rfl
    rw [hlast, ih, register, List.reverse_concat]

/-- A token stands for the user that it was registered for last. -/
theorem user?_ofList_eq_some_iff {token user : String} :
    (ofList d registrations).user? token = some user ↔ LatestFor registrations token user := by
  rw [ofList_eq, user?, List.lookup_eq_some_iff, LatestFor]
  constructor
  · rintro ⟨later, earlier, hreverse, hlater⟩
    have hsplit := congrArg List.reverse hreverse
    refine ⟨earlier.reverse, later.reverse, by simpa using hsplit, fun r hr => ?_⟩
    exact (bne_iff_ne.mp (hlater r (List.mem_reverse.mp hr))).symm
  · rintro ⟨before, after, rfl, hafter⟩
    refine ⟨after.reverse, before.reverse, by simp, fun r hr => ?_⟩
    exact bne_iff_ne.mpr (Ne.symm (hafter r (List.mem_reverse.mp hr)))

theorem authenticate_eq_missing_iff :
    t.authenticate r = .error .missing ↔
      ∀ field ∈ r.headers.fields, isNamed "Authorization" field = false := by
  have hheader : r.header? "Authorization" = none ↔
      ∀ field ∈ r.headers.fields, isNamed "Authorization" field = false := by
    rw [Request.header?, Headers.get?, Option.map_eq_none_iff, List.find?_eq_none]
    exact forall₂_congr fun field _ => Bool.eq_false_iff.symm
  rw [← hheader, authenticate]
  cases r.header? "Authorization" with
  | none => exact iff_of_true rfl rfl
  | some field =>
    refine iff_of_false ?_ nofun
    dsimp only
    split <;> nofun

theorem authenticate_eq_ok_iff :
    t.authenticate r = .ok caller ↔
      ∃ field token, r.header? "Authorization" = some field ∧ tokenOf? field = some token ∧
        t.user? token = some caller.user ∧ caller.delimiter = t.delimiter := by
  rw [authenticate]
  cases r.header? "Authorization" with
  | none => exact iff_of_false nofun fun ⟨_, _, hfield, _⟩ => nomatch hfield
  | some field =>
    dsimp only
    constructor
    · intro h
      split at h
      · cases h
      · rename_i user huser
        obtain ⟨token, htoken, huser⟩ := Option.bind_eq_some_iff.mp huser
        cases h
        exact ⟨field, token, rfl, htoken, huser, rfl⟩
    · rintro ⟨_, token, ⟨⟩, htoken, huser, hdelimiter⟩
      rw [htoken, Option.bind_some, huser]
      dsimp only
      rw [← hdelimiter]

/-- **Only registered tokens authenticate.** After any registrations, a request has no credentials just where
no field of it is named `Authorization`, in any spelling. It is a user's just where this field, without the
blanks around it, bears a token, not empty, whose latest registration is for this user. And a token without
blanks is borne by every field that sends it: alone or behind the scheme in any letter case, with any blanks
around the field and before the token. -/
theorem authenticate_iff_registered (d : Char) (registrations : List (String × String)) :
    (∀ r, (ofList d registrations).authenticate r = .error .missing ↔
      ∀ field ∈ r.headers.fields, isNamed "Authorization" field = false) ∧
    (∀ r caller, (ofList d registrations).authenticate r = .ok caller ↔
      ∃ field token, r.header? "Authorization" = some field ∧ token ≠ "" ∧
        LatestFor registrations token caller.user ∧ Bears (trimChars field.toList) token.toList ∧
        caller.delimiter = d) ∧
    (∀ token user, token ≠ "" → (∀ c ∈ token.toList, isBlank c = false) →
      LatestFor registrations token user → ∀ field, Sends token.toList field.toList →
      ∀ r, r.header? "Authorization" = some field →
        (ofList d registrations).authenticate r = .ok ⟨user, d⟩) := by
  have hdelimiter : (ofList d registrations).delimiter = d := congrArg delimiter (ofList_eq d registrations)
  have hok : ∀ r caller, (ofList d registrations).authenticate r = .ok caller ↔
      ∃ field token, r.header? "Authorization" = some field ∧ token ≠ "" ∧
        LatestFor registrations token caller.user ∧ Bears (trimChars field.toList) token.toList ∧
        caller.delimiter = d := by
    intro r caller
    rw [authenticate_eq_ok_iff]
    simp only [tokenOf?_eq_some_iff, user?_ofList_eq_some_iff, hdelimiter]
    refine exists₂_congr fun field token => ?_
    tauto
  refine ⟨fun r => authenticate_eq_missing_iff, hok, ?_⟩
  intro token user hne htoken huser field hsends r hfield
  have hchars : token.toList ≠ [] := fun hnil => hne (String.toList_eq_nil_iff.mp hnil)
  exact (hok r ⟨user, d⟩).mpr ⟨field, token, hfield, hne, huser, hsends.bears hchars htoken, rfl⟩

/-- A token that was registered twice, in a spelling of its own; one with a space in it, which can be sent
behind the scheme only; and a field of another name. -/
theorem authenticate_iff_registered_twice :
    let t := ofList '.' [("secret", "ann"), ("my key", "eve"), ("secret", "bob")]
    let request (name value : String) : Request := ⟨.post, "/jmap", Headers.ofList [(name, value)], []⟩
    t.authenticate (request "authorization" " bEARER \u2003 secret\t") = .ok ⟨"bob", '.'⟩ ∧
    t.authenticate (request "Authorization" "\nsecret") = .ok ⟨"bob", '.'⟩ ∧
    t.authenticate (request "AUTHORIZATION" "Bearer my key ") = .ok ⟨"eve", '.'⟩ ∧
    (∀ caller, t.authenticate (request "Authorization" "my key") ≠ .ok caller) ∧
    t.authenticate (request "X-Authorization" "secret") = .error .missing := by
  intro t request
  obtain ⟨hmissing, hok, hsends⟩ :=
    authenticate_iff_registered '.' [("secret", "ann"), ("my key", "eve"), ("secret", "bob")]
  have hbob : LatestFor [("secret", "ann"), ("my key", "eve"), ("secret", "bob")] "secret" "bob" :=
    ⟨[("secret", "ann"), ("my key", "eve")], [], rfl, nofun⟩
  have heve : LatestFor [("secret", "ann"), ("my key", "eve"), ("secret", "bob")] "my key" "eve" :=
    ⟨[("secret", "ann")], [("secret", "bob")], rfl, by decide⟩
  have hplain : ∀ c ∈ "secret".toList, isBlank c = false := by simp [isBlank]
  refine ⟨?_, ?_, ?_, ?_, (hmissing _).mpr (by decide)⟩
  · have hsent : Sends "secret".toList " bEARER \u2003 secret\t".toList :=
      .behind "bEARER".toList "\u2003 ".toList (by decide) (by decide)
        ⟨[' '], ['\t'], by decide, by decide, by decide⟩
    exact hsends "secret" "bob" (by decide) hplain hbob _ hsent _ (by decide)
  · have hsent : Sends "secret".toList "\nsecret".toList := .alone ⟨['\n'], [], by decide, by decide, by decide⟩
    exact hsends "secret" "bob" (by decide) hplain hbob _ hsent _ (by decide)
  · have hborne : Bears (trimChars "Bearer my key ".toList) "my key".toList :=
      Or.inr ⟨"Bearer".toList, "my key".toList, by decide, by decide, by decide⟩
    exact (hok _ _).mpr ⟨_, "my key", by decide, by decide, heve, hborne, rfl⟩
  · intro caller hfound
    obtain ⟨field, token, hfield, -, -, hborne, -⟩ := (hok _ _).mp hfound
    obtain rfl : "my key" = field := Option.some.inj hfield
    exact absurd (bears_iff.mp hborne).1 (by decide)

end Tokens

end MailServer.Http
