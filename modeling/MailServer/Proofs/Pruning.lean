import Mathlib.Data.List.Nodup
import MailServer.Log

/-!
# Rules that can go

A table of rules names the rules that are the first to apply for none of the samples. These are the rules it
can do without: where they are taken out of the table, all of them at once, each sample still finds the same
rule. The others are needed, every one of them: some sample finds it, and finds another rule or none when it is
gone.

* `without` — the table with some rules taken out, by their names.
* `find?_without`, `find?_without_ne` — what an error finds then, as the rule it found stays or goes.
* `mem_unreachable_iff` — places in the table and rules say the same of a table without duplicates.
* `unreachable_prunable` — the rules named are the ones a table can do without.
-/

namespace MailServer.Log.Classifier

variable {ε α : Type} {c : Classifier ε α} {e : ε} {r : Rule ε α} {samples : List ε} {names : List String}

/-! ## Taking rules out -/

/-- The table without the rules of these names. -/
def without (c : Classifier ε α) (names : List String) : Classifier ε α where
  __ := c
  rules := c.rules.filter fun r => r.name ∉ names

/-- An error finds the rule it found before where that rule stays in the table. -/
theorem find?_without (h : ∀ r, c.find? e = some r → r.name ∉ names) :
    (c.without names).find? e = c.find? e := by
  rw [find?, without, List.find?_filter]
  cases hfound : c.find? e with
  | none =>
    refine List.find?_eq_none.mpr fun r hr => ?_
    have hr : ¬ r.applies e := List.find?_eq_none.mp hfound r hr
    simp [hr]
  | some r =>
    obtain ⟨hr, before, after, hrules, hbefore⟩ := List.find?_eq_some_iff_append.mp hfound
    refine List.find?_eq_some_iff_append.mpr ⟨by simp [hr, h r hfound], before, after, hrules, ?_⟩
    intro earlier hearlier
    simp [hbefore earlier hearlier]

/-- An error finds no rule that has been taken out. -/
theorem find?_without_ne (h : r.name ∈ names) :
    ((c.without names).find? e).map (·.name) ≠ some r.name := by
  intro hfound
  obtain ⟨kept, hkept, hname⟩ := Option.map_eq_some_iff.mp hfound
  have hstays := (List.mem_filter.mp (List.mem_of_find?_eq_some hkept)).2
  rw [hname] at hstays
  exact of_decide_eq_true hstays h

/-- The verdict on an error, with the event, depends on the table by the rule that is found. -/
theorem resolve_without (h : (c.without names).find? e = c.find? e) (context : Context) :
    (c.without names).resolve e context = c.resolve e context := by
  rw [resolve, resolve, h]
  rfl

/-! ## Places and rules -/

/-- A rule is found where its place is. In a table with duplicates only the first of them would be. -/
theorem place?_eq_some_iff (hrules : c.rules.Nodup) {i : Nat} (hi : c.rules[i]? = some r) :
    c.place? e = some i ↔ c.find? e = some r := by
  have hfind : c.find? e = (c.place? e).bind (c.rules[·]?) := List.find?_eq_bind_findIdx?_getElem?
  rw [hfind, Option.bind_eq_some_iff]
  constructor
  · exact fun hplace => ⟨i, hplace, hi⟩
  · rintro ⟨j, hplace, hj⟩
    obtain ⟨hlt, -⟩ := List.getElem?_eq_some_iff.mp hi
    rwa [(List.getElem?_inj hlt hrules).mp (hi.trans hj.symm)]

/-- The names are those of the rules that no sample finds. -/
theorem mem_unreachable_iff (hrules : c.rules.Nodup) {name : String} :
    name ∈ c.unreachable samples ↔ ∃ r ∈ c.rules, r.name = name ∧ ∀ e ∈ samples, c.find? e ≠ some r := by
  have hreached {r : Rule ε α} {i : Nat} (hi : c.rules[i]? = some r) :
      (!samples.any fun e => c.place? e == some i) = true ↔ ∀ e ∈ samples, c.find? e ≠ some r := by
    simp only [Bool.not_eq_true', List.any_eq_false, beq_iff_eq, place?_eq_some_iff hrules hi, ne_eq]
  rw [unreachable, List.mem_map]
  constructor
  · rintro ⟨⟨r, i⟩, hmem, rfl⟩
    obtain ⟨hi, hnone⟩ := List.mem_filter.mp hmem
    rw [List.mem_zipIdx_iff_getElem?] at hi
    exact ⟨r, List.mem_of_getElem? hi, rfl, (hreached hi).mp hnone⟩
  · rintro ⟨r, hr, rfl, hnone⟩
    obtain ⟨i, hi⟩ := List.mem_iff_getElem?.mp hr
    exact ⟨(r, i), List.mem_filter.mpr ⟨List.mem_zipIdx_iff_getElem?.mpr hi, (hreached hi).mpr hnone⟩, rfl⟩

/-- The names come in the order of the table. -/
theorem unreachable_sublist (c : Classifier ε α) (samples : List ε) :
    (c.unreachable samples).Sublist (c.rules.map (·.name)) := by
  have hnames : c.rules.map (·.name) = c.rules.zipIdx.map fun ri => ri.1.name := by
    conv_lhs => rw [← List.zipIdx_map_fst 0 c.rules, List.map_map]
    rfl
  rw [hnames]
  exact List.filter_sublist.map _

/-! ## Rules that can go and rules that cannot -/

/-- A rule of a table where no name comes twice is named when no sample finds it. -/
theorem name_mem_unreachable_iff (hnames : (c.rules.map (·.name)).Nodup) (hr : r ∈ c.rules) :
    r.name ∈ c.unreachable samples ↔ ∀ e ∈ samples, c.find? e ≠ some r := by
  rw [mem_unreachable_iff hnames.of_map]
  constructor
  · rintro ⟨r', hr', hname, hnone⟩
    rwa [← List.inj_on_of_nodup_map hnames hr' hr hname]
  · exact fun hnone => ⟨r, hr, rfl, hnone⟩

/-- A sample finds no rule that is named. -/
theorem name_notMem_unreachable (hnames : (c.rules.map (·.name)).Nodup) (he : e ∈ samples)
    (hr : c.find? e = some r) : r.name ∉ c.unreachable samples := by
  rw [name_mem_unreachable_iff hnames (List.mem_of_find?_eq_some hr)]
  exact fun hnone => hnone e he hr

/-- The rules that can go, all of them at once, are those that are named. -/
theorem find?_without_iff (hnames : (c.rules.map (·.name)).Nodup) :
    (∀ e ∈ samples, (c.without names).find? e = c.find? e) ↔
      ∀ r ∈ c.rules, r.name ∈ names → r.name ∈ c.unreachable samples := by
  constructor
  · intro hsame r hr hname
    rw [name_mem_unreachable_iff hnames hr]
    intro e he hfound
    exact find?_without_ne hname (by rw [hsame e he, hfound, Option.map_some])
  · intro hnamed e he
    exact find?_without fun r hfound hname =>
      name_notMem_unreachable hnames he hfound (hnamed r (List.mem_of_find?_eq_some hfound) hname)

/-- **Rules that can go.** In a table where no name comes twice, the names reported stand in the order of the
table. Without the rules of these names every sample finds the same rule and gets the same verdict, with the
same event. Each of the other rules is needed: some sample finds it, and finds no rule of its name when it
alone is taken out. So rules can be taken out, one or many, when they are among those reported. -/
theorem unreachable_prunable (c : Classifier ε α) (samples : List ε)
    (hnames : (c.rules.map (·.name)).Nodup) :
    (c.unreachable samples).Sublist (c.rules.map (·.name)) ∧
    (∀ e ∈ samples, (c.without (c.unreachable samples)).find? e = c.find? e ∧
      ∀ context, (c.without (c.unreachable samples)).resolve e context = c.resolve e context) ∧
    (∀ r ∈ c.rules, r.name ∉ c.unreachable samples → ∃ e ∈ samples, c.find? e = some r ∧
      ((c.without [r.name]).find? e).map (·.name) ≠ some r.name) ∧
    (∀ names, (∀ e ∈ samples, (c.without names).find? e = c.find? e) ↔
      ∀ r ∈ c.rules, r.name ∈ names → r.name ∈ c.unreachable samples) := by
  refine ⟨unreachable_sublist c samples, ?kept, ?needed, fun names => find?_without_iff hnames⟩
  case kept =>
    intro e he
    have hsame : (c.without (c.unreachable samples)).find? e = c.find? e :=
      (find?_without_iff hnames).mpr (fun _ _ hname => hname) e he
    exact ⟨hsame, resolve_without hsame⟩
  case needed =>
    intro r hr hname
    rw [name_mem_unreachable_iff hnames hr] at hname
    obtain ⟨e, he, hfound⟩ : ∃ e ∈ samples, c.find? e = some r := by
      simpa only [not_forall, not_not, exists_prop] using hname
    exact ⟨e, he, hfound, find?_without_ne (List.mem_singleton_self r.name)⟩

/-- A table with a rule that stands behind a broader one. -/
def overlapping : Classifier Nat String where
  rules := [⟨"small", (· < 10), "retry", .info, "retried"⟩, ⟨"tiny", (· < 5), "ignore", .debug, "ignored"⟩,
    ⟨"even", (· % 2 == 0), "split", .warn, "split"⟩]
  fallback := "stop"
  fallbackMessage := "stopped"
  describe := toString

theorem unreachable_prunable_overlapping :
    overlapping.unreachable [3, 12] = ["tiny"] ∧
    (∀ context, (overlapping.without ["tiny"]).resolve 3 context = overlapping.resolve 3 context) ∧
    (∃ e ∈ [3, 12], ((overlapping.without ["even"]).find? e).map (·.name) ≠ some "even") ∧
    ¬ ∀ e ∈ [3, 12], (overlapping.without ["tiny", "small"]).find? e = overlapping.find? e := by
  have hreported : overlapping.unreachable [3, 12] = ["tiny"] := by decide
  obtain ⟨-, hkept, hneeded, hiff⟩ := unreachable_prunable overlapping [3, 12] (by decide)
  rw [hreported] at hkept hneeded hiff
  obtain ⟨e, he, -, hgone⟩ := hneeded ⟨"even", (· % 2 == 0), "split", .warn, "split"⟩
    (.tail _ (.tail _ (.head _))) (by decide)
  refine ⟨hreported, (hkept 3 (by decide)).2, ⟨e, he, hgone⟩, fun hsame => ?_⟩
  have hsmall := (hiff _).mp hsame ⟨"small", (· < 10), "retry", .info, "retried"⟩ (.head _) (by decide)
  exact absurd hsmall (by decide)

end MailServer.Log.Classifier
