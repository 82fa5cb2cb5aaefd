import Mathlib.Logic.Relation
import MailServer.Http.Route
import MailServer.Proofs.Blank
import MailServer.Proofs.Name

/-!
# The version that is asked for

An `Accept` field is a list of segments, and the versions that it asks for are the values of those segments
that are a parameter of the right name. The first of these values decides, and nothing else counts: not the
other segments, nor what separates them, nor blanks, nor the letter case of a name.

* `Reads`, `reads_iff` — the segments of a text, whatever stands between them.
* `Asks` — a segment that asks for a version.
* `asked`, `ofAccept_eq` — the versions that are asked for, one after the other, and that the first decides.
* `Respelled`, `Edit`, `asked_eq_of_edit` — the edits that leave the versions that are asked for alone.
* `version_by_first_asked` — what an edited field asks for, and the version in each case.
-/

namespace MailServer.Http.Version

open Text (Padded isBlank pieces sameFolded trimChars)

/-! ## Segments -/

/-- The characters that segments end at. -/
def separates (c : Char) : Bool := c == ',' || c == ';'

/-- The text has these segments, with separators of either kind between them. -/
inductive Reads : List Char → List (List Char) → Prop
  | last {segment : List Char} (hsegment : ∀ c ∈ segment, separates c = false) : Reads segment [segment]
  | more {segment rest : List Char} {segments : List (List Char)} {c : Char}
      (hsegment : ∀ c ∈ segment, separates c = false) (hc : separates c = true)
      (hrest : Reads rest segments) : Reads (segment ++ c :: rest) (segment :: segments)

variable {cs segment segment' value : List Char} {segments segments' : List (List Char)}

theorem reads_pieces (cs : List Char) : Reads cs (pieces separates cs) := by
  induction cs with
  | nil =>
    show Reads [] [[]]
    exact .last fun _ hx => absurd hx List.not_mem_nil
  | cons c cs ih =>
    rw [pieces]
    split <;> rename_i hc
    · show Reads ([] ++ c :: cs) _
      exact .more (fun _ hx => absurd hx List.not_mem_nil) hc ih
    · -- the first segment gets one character more, whether others follow it or not
      have hfree : ∀ {p : List Char}, (∀ x ∈ p, separates x = false) → ∀ x ∈ c :: p, separates x = false :=
        fun hp => List.forall_mem_cons.mpr ⟨Bool.eq_false_iff.mpr hc, hp⟩
      generalize pieces separates cs = segments at ih
      cases ih with
      | last hsegment => exact .last (hfree hsegment)
      | more hsegment hc hrest => exact .more (hfree hsegment) hc hrest

theorem reads_iff : Reads cs segments ↔ pieces separates cs = segments := by
  constructor
  · intro h
    induction h with
    | last hsegment => exact Text.pieces_of_forall hsegment
    | more hsegment hc _ ih =>
      rw [Text.pieces_append_cons hc, Text.pieces_of_forall hsegment, ih, List.singleton_append]
  · rintro rfl
    exact reads_pieces cs

/-! ## Asking for a version -/

/-- The segment is the parameter that asks for a version, and this is its value. -/
def Asks (segment value : List Char) : Prop :=
  ∃ name rest, segment = name ++ '=' :: rest ∧ '=' ∉ name ∧
    sameFolded (String.ofList (trimChars name)) parameter = true ∧ value = trimChars rest

/-- The value of a segment that asks for a version. -/
def value? (segment : List Char) : Option (List Char) :=
  (parameterValue? segment).map fun value => trimChars value.toList

theorem asks_append_iff {name rest : List Char} (hname : '=' ∉ name) :
    Asks (name ++ '=' :: rest) value ↔
      sameFolded (String.ofList (trimChars name)) parameter = true ∧ value = trimChars rest := by
  constructor
  · rintro ⟨name', rest', heq, hname', hparameter, hvalue⟩
    -- there is only one first sign
    have hcut := Text.cutFirst_append (b := rest) hname
    rw [heq, Text.cutFirst_append hname'] at hcut
    cases hcut
    exact ⟨hparameter, hvalue⟩
  · exact fun ⟨hparameter, hvalue⟩ => ⟨name, rest, rfl, hname, hparameter, hvalue⟩

theorem value?_eq_some_iff : value? segment = some value ↔ Asks segment value := by
  obtain ⟨before, after, hbefore, hafter, hsegment⟩ := Text.padded_trimChars segment
  have hsign : isBlank '=' = false := by decide
  have hfree : ∀ {blanks : List Char}, Text.Blanks blanks → '=' ∉ blanks := fun hblanks hmem =>
    Bool.false_ne_true (hsign.symm.trans (hblanks '=' hmem))
  rw [value?, parameterValue?]
  generalize trimChars segment = core at hsegment ⊢
  subst hsegment
  cases hcut : Text.cutFirst '=' core with
  | none =>
    have hcore := Text.cutFirst_eq_none_iff.mp hcut
    refine iff_of_false nofun ?_
    rintro ⟨name, rest, heq, -⟩
    have hmem : '=' ∈ before ++ core ++ after := heq ▸ List.mem_append_right name List.mem_cons_self
    simp [hfree hbefore, hfree hafter, hcore] at hmem
  | some cut =>
    obtain ⟨name, rest⟩ := cut
    obtain ⟨rfl, hname⟩ := Text.append_of_cutFirst hcut
    have hwhole : before ++ (name ++ '=' :: rest) ++ after = (before ++ name) ++ '=' :: (rest ++ after) := by
      simp
    have hfirst : '=' ∉ before ++ name := by simp [hfree hbefore, hname]
    -- the blanks at the ends of the segment are blanks around its name and its value
    rw [hwhole, asks_append_iff hfirst, (hbefore.padded_append name).trimChars_eq,
      (hafter.append_padded rest).trimChars_eq]
    dsimp only
    split <;> rename_i hparameter <;> simp [hparameter, eq_comm]

/-- The segment asks for some version. -/
def AsksSome (segment : List Char) : Prop := ∃ value, Asks segment value

theorem asksSome_iff : AsksSome segment ↔ (value? segment).isSome = true := by
  rw [Option.isSome_iff_exists]
  exact exists_congr fun _ => value?_eq_some_iff.symm

instance (segment : List Char) : Decidable (AsksSome segment) := decidable_of_iff _ asksSome_iff.symm

/-- The versions that the segments ask for, one after the other. -/
def asked (segments : List (List Char)) : List (List Char) := segments.filterMap value?

/-- The version of a name, or the error that shows a name without a version. -/
structure Named (name : List Char) (result : Except Error Version) : Prop where
  draft : name = "draft".toList → result = .ok .draft
  rfc8621 : name = "rfc-8621".toList → result = .ok .rfc8621
  unknown : name ≠ "draft".toList → name ≠ "rfc-8621".toList →
    result = .error (.unsupportedVersion (String.ofList name))

theorem named_parse (value : String) : Named (trimChars value.toList) (parse value) := by
  have hchars : trimChars value.toList = (Text.trim value).toList := String.toList_ofList.symm
  rw [hchars, parse]
  generalize Text.trim value = name
  refine ⟨fun hdraft => ?_, fun hrfc => ?_, fun hdraft hrfc => ?_⟩
  · exact if_pos (String.toList_inj.mp hdraft)
  · rw [String.toList_inj.mp hrfc]
    rfl
  · rw [if_neg (mt (congrArg String.toList) hdraft), if_neg (mt (congrArg String.toList) hrfc),
      String.ofList_toList]

/-- Only what is left of a value without the blanks around it counts. -/
theorem parse_congr {value value' : String} (h : trimChars value.toList = trimChars value'.toList) :
    parse value = parse value' := by
  rw [parse, parse, Text.trim, Text.trim, h]

theorem trimChars_of_mem_asked (h : value ∈ asked segments) : trimChars value = value := by
  obtain ⟨segment, -, hvalue⟩ := List.mem_filterMap.mp h
  obtain ⟨name, rest, -, -, -, rfl⟩ := value?_eq_some_iff.mp hvalue
  exact (Text.padded_trimChars rest).trimChars_eq.symm

/-- The first version that is asked for decides. -/
theorem ofAccept_eq {accept : String} (h : Reads accept.toList segments) :
    ofAccept accept = match (asked segments).head? with
      | some value => parse (String.ofList value)
      | none => .ok .draft := by
  have hhead : (asked segments).head? =
      (segments.findSome? parameterValue?).map fun value => trimChars value.toList := by
    rw [asked, List.head?_filterMap, List.map_findSome?]
    rfl
  have hpieces : pieces (fun c => c == ',' || c == ';') accept.toList = segments := reads_iff.mp h
  rw [ofAccept, hpieces, hhead]
  cases segments.findSome? parameterValue? with
  | none => rfl
  | some value =>
    refine parse_congr ?_
    rw [String.toList_ofList]
    exact (Text.padded_trimChars value.toList).trimChars_eq

/-! ## Edits -/

/-- The same segment in another spelling: with other blanks around it; or with other blanks around its name and
its value, and the name in another letter case. -/
inductive Respelled : List Char → List Char → Prop
  | around {core segment segment' : List Char} (h : Padded core segment) (h' : Padded core segment') :
      Respelled segment segment'
  | parameter {name name' spelled spelled' value rest rest' : List Char} (hname : Padded name spelled)
      (hname' : Padded name' spelled') (hfolded : sameFolded (String.ofList name) (String.ofList name') = true)
      (hfree : '=' ∉ spelled) (hfree' : '=' ∉ spelled') (hvalue : Padded value rest)
      (hvalue' : Padded value rest') : Respelled (spelled ++ '=' :: rest) (spelled' ++ '=' :: rest')

/-- The edits of segments that leave those that ask for a version in their order. -/
inductive Edit : List (List Char) → List (List Char) → Prop
  | insert {segment : List Char} (before after : List (List Char)) (h : ¬ AsksSome segment) :
      Edit (before ++ after) (before ++ segment :: after)
  | remove {segment : List Char} (before after : List (List Char)) (h : ¬ AsksSome segment) :
      Edit (before ++ segment :: after) (before ++ after)
  | permute {segments segments' : List (List Char)} (hperm : segments.Perm segments')
      (horder : segments.filter AsksSome = segments'.filter AsksSome) : Edit segments segments'
  | respell {segment segment' : List Char} (before after : List (List Char))
      (h : Respelled segment segment') : Edit (before ++ segment :: after) (before ++ segment' :: after)

theorem value?_eq_none (h : ¬ AsksSome segment) : value? segment = none :=
  Option.not_isSome_iff_eq_none.mp (asksSome_iff.not.mp h)

theorem value?_congr (h : trimChars segment = trimChars segment') : value? segment = value? segment' := by
  rw [value?, value?, parameterValue?, parameterValue?, h]

theorem Respelled.value?_eq (h : Respelled segment segment') : value? segment = value? segment' := by
  cases h with
  | around h h' => exact value?_congr (h.trimChars_eq.trans h'.trimChars_eq.symm)
  | parameter hname hname' hfolded hfree hfree' hvalue hvalue' =>
    refine Option.ext fun value => ?_
    rw [value?_eq_some_iff, value?_eq_some_iff, asks_append_iff hfree, asks_append_iff hfree',
      hname.trimChars_eq, hname'.trimChars_eq, hvalue.trimChars_eq, hvalue'.trimChars_eq,
      Text.sameFolded_congr (Text.sameFolded_trimChars hfolded)]

theorem asked_filter (segments : List (List Char)) : asked (segments.filter AsksSome) = asked segments := by
  rw [asked, asked, List.filterMap_filter]
  refine List.filterMap_congr fun segment _ => ?_
  split
  · rfl
  · rename_i hnone
    exact (value?_eq_none (of_decide_eq_false (Bool.eq_false_iff.mpr hnone))).symm

/-- No edit changes the versions that are asked for. -/
theorem asked_eq_of_edit (h : Edit segments segments') : asked segments = asked segments' := by
  cases h with
  | insert before after h => simp [asked, value?_eq_none h]
  | remove before after h => simp [asked, value?_eq_none h]
  | permute hperm horder => rw [← asked_filter segments, horder, asked_filter]
  | respell before after h => simp [asked, List.filterMap_cons, h.value?_eq]

theorem asked_eq_of_edits (h : Relation.ReflTransGen Edit segments segments') :
    asked segments = asked segments' := by
  induction h with
  | refl => rfl
  | tail _ hedit ih => exact ih.trans (asked_eq_of_edit hedit)

/-! ## Requests -/

variable {r r' : Request} {accept accept' : String}

theorem ofRequest_eq (h : r.header? "Accept" = some accept) : ofRequest r = ofAccept accept := by
  rw [ofRequest, h]

/-- **The first version that is asked for decides**, and nothing else does. Every `Accept` field has one list
of segments. Requests ask for the same when the segments of one come from those of the other by any edits that
leave the segments that ask for a version in their order; what separates the segments does not count. Where no
segment asks for a version it is the draft, and else the version whose name is the value of the first segment
that does, or an error that shows this value where it names no version. -/
theorem version_by_first_asked :
    (∀ accept : String, ∃ segments, ∀ segments', Reads accept.toList segments' ↔ segments' = segments) ∧
    (∀ (r r' : Request) (accept accept' : String) (segments segments' : List (List Char)),
      r.header? "Accept" = some accept → Reads accept.toList segments →
      r'.header? "Accept" = some accept' → Reads accept'.toList segments' →
      Relation.ReflTransGen Edit segments segments' → ofRequest r = ofRequest r') ∧
    (∀ (r : Request) (accept : String) (segments : List (List Char)),
      r.header? "Accept" = some accept → Reads accept.toList segments →
      ((∀ segment ∈ segments, ¬ AsksSome segment) → ofRequest r = .ok .draft) ∧
      (∀ before segment after value, segments = before ++ segment :: after →
        (∀ earlier ∈ before, ¬ AsksSome earlier) → Asks segment value → Named value (ofRequest r))) := by
  refine ⟨?reads, ?edits, fun r accept segments hr hreads => ⟨fun hnone => ?draft, ?first⟩⟩
  case reads =>
    exact fun accept => ⟨pieces separates accept.toList, fun _ => reads_iff.trans eq_comm⟩
  case edits =>
    intro r r' accept accept' segments segments' hr hreads hr' hreads' hedits
    rw [ofRequest_eq hr, ofRequest_eq hr', ofAccept_eq hreads, ofAccept_eq hreads', asked_eq_of_edits hedits]
  case draft =>
    have hasked : asked segments = [] :=
      List.filterMap_eq_nil_iff.mpr fun segment hsegment => value?_eq_none (hnone segment hsegment)
    rw [ofRequest_eq hr, ofAccept_eq hreads, hasked]
    rfl
  case first =>
    rintro before segment after value rfl hbefore hasks
    have hnone : asked before = [] :=
      List.filterMap_eq_nil_iff.mpr fun earlier hearlier => value?_eq_none (hbefore earlier hearlier)
    have hasked : asked (before ++ segment :: after) = value :: asked after := by
      rw [asked, List.filterMap_append, List.filterMap_cons_some (value?_eq_some_iff.mpr hasks)]
      exact congrArg (· ++ value :: asked after) hnone
    have hvalue : trimChars value = value :=
      trimChars_of_mem_asked (hasked ▸ List.mem_cons_self)
    have hnamed := named_parse (String.ofList value)
    rw [String.toList_ofList, hvalue] at hnamed
    rw [ofRequest_eq hr, ofAccept_eq hreads, hasked]
    exact hnamed

/-- A field that asks for two versions, the same after some edits, one that asks for none, and one whose version
is not known. -/
theorem version_by_first_asked_edited :
    let request (accept : String) : Request := ⟨.post, "/jmap", Headers.ofList [("accept", accept)], []⟩
    let accept := "text/html, JMAPVERSION = rfc-8621 ; q=1;jmapVersion=draft"
    let edited := "jmapVersion=rfc-8621;jmapVersion=draft, q=1"
    ofRequest (request accept) = .ok .rfc8621 ∧ ofRequest (request edited) = .ok .rfc8621 ∧
    ofRequest (request "text/html;q=1") = .ok .draft ∧
    ofRequest (request "*/*;jmapVersion= v9=x") = .error (.unsupportedVersion "v9=x") := by
  intro request accept edited
  obtain ⟨-, hedits, hversion⟩ := version_by_first_asked
  let spelled := " JMAPVERSION ".toList ++ '=' :: " rfc-8621 ".toList
  let respelled := "jmapVersion".toList ++ '=' :: "rfc-8621".toList
  have hreads : Reads accept.toList ["text/html".toList, spelled, " q=1".toList, "jmapVersion=draft".toList] :=
    reads_iff.mpr (by decide)
  have hreads' : Reads edited.toList [respelled, "jmapVersion=draft".toList, " q=1".toList] :=
    reads_iff.mpr (by decide)
  have hrespelled : Respelled spelled respelled :=
    .parameter (⟨[' '], [' '], by decide, by decide, by decide⟩ : Padded "JMAPVERSION".toList _)
      (⟨[], [], by decide, by decide, by decide⟩ : Padded "jmapVersion".toList _) (by decide) (by decide)
      (by decide) (⟨[' '], [' '], by decide, by decide, by decide⟩ : Padded "rfc-8621".toList _)
      ⟨[], [], by decide, by decide, by decide⟩
  have hremove : Edit _ [spelled, " q=1".toList, "jmapVersion=draft".toList] :=
    .remove [] _ (by decide : ¬ AsksSome "text/html".toList)
  have hrespell : Edit _ [respelled, " q=1".toList, "jmapVersion=draft".toList] := .respell [] _ hrespelled
  have hpermute : Edit [respelled, " q=1".toList, "jmapVersion=draft".toList]
      [respelled, "jmapVersion=draft".toList, " q=1".toList] := .permute (by decide) (by decide)
  have hsame : ofRequest (request accept) = ofRequest (request edited) :=
    hedits _ _ _ _ _ _ rfl hreads rfl hreads' (((Relation.ReflTransGen.single hremove).tail hrespell).tail hpermute)
  have hfirst : Named "rfc-8621".toList (ofRequest (request edited)) :=
    (hversion _ _ _ rfl hreads').2 [] _ _ _ rfl nofun
      ⟨"jmapVersion".toList, "rfc-8621".toList, rfl, by decide, by decide, by decide⟩
  have hnone : ofRequest (request "text/html;q=1") = .ok .draft :=
    (hversion _ _ ["text/html".toList, "q=1".toList] rfl (reads_iff.mpr (by decide))).1 (by decide)
  have hunknown : Named "v9=x".toList (ofRequest (request "*/*;jmapVersion= v9=x")) :=
    (hversion _ _ ["*/*".toList, "jmapVersion= v9=x".toList] rfl (reads_iff.mpr (by decide))).2
      ["*/*".toList] _ [] _ rfl (by decide)
      ⟨"jmapVersion".toList, " v9=x".toList, by decide, by decide, by decide, by decide⟩
  have hedited : ofRequest (request edited) = .ok .rfc8621 := hfirst.rfc8621 rfl
  exact ⟨hsame.trans hedited, hedited, hnone, hunknown.unknown (by decide) (by decide)⟩

end MailServer.Http.Version
