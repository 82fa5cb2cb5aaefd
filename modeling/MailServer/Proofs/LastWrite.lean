import Mathlib.Data.List.Induction
import MailServer.Http.Route
import MailServer.Proofs.Run
import MailServer.Service.Script

/-!
# The last write of a header field

Writing a field takes away an earlier one of its name, whatever the spelling. So what a message holds can be
read off everything that was written, from behind: a field is there just where its name is not written again.

* `Headers.lastWrites` — what is kept of fields written one after the other, said without writing them.
* `Headers.fields_foldl_insert`, `Headers.find?_ofList` — a run of writes: all fields, and the one of a name.
* `Origins.admitting` — the fields that admit an origin; `Origins.Admitted` — a response with these fields,
  against the one it was made from.
* `last_write_wins` — what a message holds, and what becomes of the responses of a decorated handler.
-/

namespace MailServer.Http

open Service (Call Note Script)

namespace Headers

/-! ## Names -/

/-- The field has the name, in some spelling. -/
def isNamed (name : String) (field : String × String) : Bool := Text.sameFolded field.1 name

/-- No two of the fields have one name. -/
def Distinct (fields : List (String × String)) : Prop := fields.Pairwise fun a b => isNamed a.1 b = false

variable {own : String × String} {spelled : String} {fields : List (String × String)}

theorem isNamed_comm (a b : String × String) : isNamed a.1 b = isNamed b.1 a := Text.sameFolded_comm b.1 a.1

/-- Two spellings of a name are names of the same fields. -/
theorem isNamed_eq (h : isNamed spelled own = true) : isNamed own.1 = isNamed spelled := by
  funext field
  rw [isNamed, isNamed, Text.sameFolded_comm, Text.sameFolded_comm field.1, Text.sameFolded_congr h]

theorem Distinct.filter_eq (h : Distinct fields) (hown : own ∈ fields) (hspelled : isNamed spelled own = true) :
    fields.filter (isNamed spelled) = [own] := by
  obtain ⟨before, after, rfl⟩ := List.append_of_mem hown
  rw [Distinct, List.pairwise_append, List.pairwise_cons] at h
  obtain ⟨-, ⟨hafter, -⟩, hbefore⟩ := h
  rw [List.filter_append, List.filter_cons_of_pos hspelled, ← isNamed_eq hspelled,
    List.filter_eq_nil_iff.mpr, List.filter_eq_nil_iff.mpr, List.nil_append]
  · exact fun field hfield => Bool.eq_false_iff.mp (hafter field hfield)
  · intro field hfield
    rw [isNamed_comm]
    exact Bool.eq_false_iff.mp (hbefore field hfield own List.mem_cons_self)

/-! ## Fields that are kept -/

/-- Of fields in the order in which they are written, those whose name is not written again. -/
def lastWrites : List (String × String) → List (String × String)
  | [] => []
  | field :: later =>
    if later.any (isNamed field.1) then lastWrites later else field :: lastWrites later

theorem lastWrites_sublist (writes : List (String × String)) : (lastWrites writes).Sublist writes := by
  induction writes with
  | nil => exact List.Sublist.refl []
  | cons field later ih =>
    rw [lastWrites]
    split
    · exact ih.cons field
    · exact ih.cons_cons field

theorem distinct_lastWrites (writes : List (String × String)) : Distinct (lastWrites writes) := by
  induction writes with
  | nil => exact List.Pairwise.nil
  | cons field later ih =>
    rw [lastWrites]
    split
    · exact ih
    · rename_i hlast
      rw [List.any_eq_true] at hlast
      refine List.pairwise_cons.mpr ⟨fun other hother => ?_, ih⟩
      exact Bool.eq_false_iff.mpr fun hnamed => hlast ⟨other, (lastWrites_sublist later).mem hother, hnamed⟩

theorem Distinct.lastWrites_eq (h : Distinct fields) : lastWrites fields = fields := by
  induction h with
  | nil => rfl
  | cons hfield _ ih =>
    rw [lastWrites, if_neg, ih]
    intro hany
    obtain ⟨other, hother, hnamed⟩ := List.any_eq_true.mp hany
    exact Bool.false_ne_true ((hfield other hother).symm.trans hnamed)

/-! ## Writing -/

theorem fields_insert (field : String × String) (h : Headers) :
    (h.insert field.1 field.2).fields = h.fields.filter (fun other => !isNamed field.1 other) ++ [field] := rfl

theorem find?_insert (name : String) (field : String × String) (h : Headers) :
    (h.insert field.1 field.2).fields.find? (isNamed name) =
      if isNamed name field then some field else h.fields.find? (isNamed name) := by
  rw [fields_insert, List.find?_append, List.find?_filter, List.find?_singleton]
  split
  · -- the earlier fields of the name are those that were taken away
    rename_i hnamed
    rw [isNamed_eq hnamed, List.find?_eq_none.mpr, Option.none_or]
    intro other _ hother
    cases hother' : isNamed name other <;> simp [hother'] at hother
  · rename_i hnamed
    rw [Option.or_none]
    congr 1
    funext other
    -- a field of the name would share it with the one that is written
    have hkept : isNamed name other = true → isNamed field.1 other = false := by
      intro hother
      rw [isNamed_comm, isNamed_eq hother]
      exact Bool.eq_false_iff.mpr hnamed
    cases hother : isNamed name other <;> simp [hother, hkept]

/-- Fields written behind others: of the others those stay whose names are not written, and of the fields
themselves those that are not written again. Induction on the fields. -/
theorem fields_foldl_insert (writes : List (String × String)) (h : Headers) :
    (writes.foldl (fun h field => h.insert field.1 field.2) h).fields =
      h.fields.filter (fun other => !writes.any (isNamed other.1)) ++ lastWrites writes := by
  induction writes generalizing h with
  | nil =>
    rw [lastWrites, List.append_nil]
    exact (List.filter_eq_self.mpr fun _ _ => rfl).symm
  | cons field later ih =>
    have hkept : ∀ other, (!later.any (isNamed other.1) && !isNamed field.1 other) =
        !(field :: later).any (isNamed other.1) := by
      intro other
      rw [List.any_cons, Bool.not_or, Bool.and_comm, isNamed_comm field]
    rw [List.foldl_cons, ih, fields_insert, List.filter_append, List.filter_filter, List.append_assoc,
      List.filter_congr fun other _ => hkept other, lastWrites]
    split <;> rename_i hany
    · rw [List.filter_cons_of_neg (by rw [hany]; decide), List.filter_nil, List.nil_append]
    · rw [List.filter_cons_of_pos (by rw [Bool.eq_false_iff.mpr hany]; rfl), List.filter_nil,
        List.singleton_append]

theorem fields_ofList (writes : List (String × String)) : (ofList writes).fields = lastWrites writes :=
  fields_foldl_insert writes empty

/-- The field of a name is the one of that name that was written last. Induction on the writes. -/
theorem find?_ofList (name : String) (writes : List (String × String)) :
    (ofList writes).fields.find? (isNamed name) = writes.reverse.find? (isNamed name) := by
  induction writes using List.reverseRecOn with
  | nil => rfl
  | append_singleton before field ih =>
    have hlast : ofList (before ++ [field]) = (ofList before).insert field.1 field.2 := by
      rw [ofList, List.foldl_append]
      rfl
    rw [hlast, find?_insert, ih, List.reverse_concat, List.find?_cons]
    cases isNamed name field <;> rfl

theorem get?_ofList (name : String) (writes : List (String × String)) :
    (ofList writes).get? name = (writes.reverse.find? (isNamed name)).map (·.2) :=
  congrArg (Option.map Prod.snd) (find?_ofList name writes)

theorem get?_of_filter {h : Headers} (hfilter : h.fields.filter (isNamed spelled) = [own]) :
    h.get? spelled = some own.2 := by
  have hfind : h.fields.find? (isNamed spelled) = some own := by
    rw [← List.head?_filter, hfilter, List.head?_cons]
  exact congrArg (Option.map Prod.snd) hfind

end Headers

/-! ## Admitting an origin -/

namespace Origins

open Headers (isNamed)

/-- The four fields that admit an origin, with their values. -/
def admitting (origin : String) : List (String × String) := [
  ("Access-Control-Allow-Origin", origin),
  ("Access-Control-Allow-Methods", "GET, POST, DELETE, PUT"),
  ("Access-Control-Allow-Headers", "Content-Type, Authorization, Accept"),
  ("Access-Control-Max-Age", "86400")]

/-- The response `outer` is `inner` with the fields that admit the origin: these come last, each of them
once, and of the fields of `inner` the others stay as they are. -/
structure Admitted (o : Origins) (inner outer : Response) : Prop where
  status : outer.status = inner.status
  body : outer.body = inner.body
  fields : outer.headers.fields =
    inner.headers.fields.filter (fun field => !(admitting o.allowed).any (isNamed field.1)) ++
      admitting o.allowed
  once {own : String × String} {spelled : String} : own ∈ admitting o.allowed →
    isNamed spelled own = true → outer.headers.fields.filter (isNamed spelled) = [own]

theorem distinct_admitting (origin : String) : Headers.Distinct (admitting origin) := by
  simp [Headers.Distinct, admitting, isNamed, Text.sameFolded]

theorem headers_apply (o : Origins) (inner : Response) : (o.apply inner).headers =
    (admitting o.allowed).foldl (fun h field => h.insert field.1 field.2) inner.headers := rfl

theorem admitted_apply (o : Origins) (inner : Response) : o.Admitted inner (o.apply inner) := by
  have hdistinct : Headers.Distinct (admitting o.allowed) := distinct_admitting o.allowed
  have hfields : (o.apply inner).headers.fields =
      inner.headers.fields.filter (fun field => !(admitting o.allowed).any (isNamed field.1)) ++
        admitting o.allowed := by
    rw [headers_apply, Headers.fields_foldl_insert, hdistinct.lastWrites_eq]
  refine ⟨rfl, rfl, hfields, fun {own spelled} hown hspelled => ?_⟩
  rw [hfields, List.filter_append, hdistinct.filter_eq hown hspelled, List.filter_eq_nil_iff.mpr,
    List.nil_append]
  -- what is left of the handler's own fields has none of the names
  intro field hfield hnamed
  rw [List.mem_filter, Bool.not_eq_true', List.any_eq_false] at hfield
  rw [← Headers.isNamed_eq hspelled, Headers.isNamed_comm] at hnamed
  exact hfield.2 own hown hnamed

end Origins

/-! ## Every run of writes -/

open Headers (isNamed lastWrites) in
/-- **The last write of a name wins.** After any writes, a message holds those fields whose name is not
written again in any spelling, in the order and with the spelling of these writes; so no two of its fields
have one name, and what it says under a name is what was written last under it. A handler that admits an
origin runs as it does without; its response keeps status and body and, in their order, all fields but the
four that admit an origin, and ends in these, each of them once. -/
theorem last_write_wins :
    (∀ writes : List (String × String),
      (Headers.ofList writes).fields = lastWrites writes ∧
      Headers.Distinct (Headers.ofList writes).fields ∧
      ∀ name, (Headers.ofList writes).get? name = (writes.reverse.find? (isNamed name)).map (·.2)) ∧
    ∀ (o : Origins) (handler : Handler) (r : Request) {σ : Type} (answer : (c : Call) → σ → c.Reply × σ)
      (s after : σ) (inner : Response) (notes : List Note),
      Script.Runs answer (handler r) s inner after notes →
        ∃ outer, Script.Runs answer (o.wrap handler r) s outer after notes ∧ o.Admitted inner outer := by
  refine ⟨fun writes => ⟨Headers.fields_ofList writes, ?_, fun name => Headers.get?_ofList name writes⟩, ?_⟩
  · rw [Headers.fields_ofList]
    exact Headers.distinct_lastWrites writes
  · intro o handler r σ answer s after inner notes hinner
    exact ⟨o.apply inner, hinner.map o.apply, o.admitted_apply inner⟩

/-- A handler that admits every origin, in a spelling of its own, where one origin is to be admitted. -/
theorem last_write_wins_own_spelling :
    let own := [("access-control-allow-origin", "*"), ("X-Method", "POST"), ("x-method", "GET")]
    let handler : Handler := fun _ => pure { Response.ofStatus 204 with headers := Headers.ofList own }
    let o : Origins := ⟨"https://mail.example"⟩
    let r : Request := ⟨.post, "/jmap", .empty, []⟩
    let b := Service.Backend.empty 20 '.'
    ∃ inner outer, Script.Runs Service.Backend.answer (handler r) b inner b [] ∧
      inner.headers.fields = [("access-control-allow-origin", "*"), ("x-method", "GET")] ∧
      Script.Runs Service.Backend.answer (o.wrap handler r) b outer b [] ∧ outer.status = 204 ∧
      outer.headers.fields = [("x-method", "GET"), ("Access-Control-Allow-Origin", "https://mail.example"),
        ("Access-Control-Allow-Methods", "GET, POST, DELETE, PUT"),
        ("Access-Control-Allow-Headers", "Content-Type, Authorization, Accept"),
        ("Access-Control-Max-Age", "86400")] ∧
      outer.headers.get? "access-control-allow-origin" = some "https://mail.example" := by
  intro own handler o r b
  have hinner : Script.Runs Service.Backend.answer (handler r) b _ b [] := Script.runs_pure _ b
  obtain ⟨outer, houter, hadmitted⟩ :=
    last_write_wins.2 o handler r Service.Backend.answer b b _ [] hinner
  have hfields := (last_write_wins.1 own).1
  refine ⟨_, outer, hinner, ?_, houter, hadmitted.status, ?_, ?_⟩
  · rw [hfields]
    decide
  · rw [hadmitted.fields, hfields]
    decide
  · have hown : ("Access-Control-Allow-Origin", o.allowed) ∈ Origins.admitting o.allowed :=
      List.mem_cons_self
    exact Headers.get?_of_filter (hadmitted.once hown (by decide))

end MailServer.Http
