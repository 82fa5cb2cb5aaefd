import Mathlib.Logic.Function.Iterate
import MailServer.Proofs.Path

/-!
# Going up from a mailbox

The mailboxes around one can be told in two ways. From the left, they are named by the parts of the name that
end before a delimiter. From the right, one goes up from parent to parent until there is none, and turns the
list of what was passed around. Both come to the same list, whatever delimiters the name begins or ends with
or has side by side.

* `ancestors_eq_map_range` — the ancestors by the places of the delimiters.
* `climb`, `through`, `iterate_climb` — going up: what a round keeps, and where all rounds lead.
* `parent?_eq_getLast?`, `child_of_parent?` — the parent, and the way back down from it.
* `ancestors_exact` — the laws of going up and down.
-/

namespace MailServer.Text

/-- The beginnings by the places of the delimiters behind them. Induction on the text: the places in the rest
are one further on. -/
theorem headsBefore_eq_map_range (d : Char) (cs : List Char) :
    headsBefore d cs = ((List.range cs.length).filter (cs[·]? = some d)).map cs.take := by
  induction cs with
  | nil => rfl
  | cons c cs ih =>
    have hrest : (((List.range cs.length).map Nat.succ).filter ((c :: cs)[·]? = some d)).map (c :: cs).take =
        (headsBefore d cs).map (c :: ·) := by
      rw [ih, List.filter_map, List.map_map, List.map_map]
      rfl
    rw [List.length_cons, List.range_succ_eq_map, List.filter_cons, headsBefore, ← hrest]
    by_cases hc : c = d
    · simp [hc]
    · simp [hc]

theorem length_headsBefore (d : Char) (cs : List Char) : (headsBefore d cs).length = cs.count d := by
  induction cs with
  | nil => rfl
  | cons c cs ih =>
    rw [headsBefore]
    by_cases hc : c = d
    · simp [hc, ih]
    · simp [hc, ih]

end MailServer.Text

namespace MailServer.Mailbox.Path

variable {p q : Path} {d : Char}

/-! ## From the left -/

theorem ancestors_eq_map_range (p : Path) (d : Char) :
    p.ancestors d = ((List.range p.name.length).filter (p.name.toList[·]? = some d)).map fun i =>
      ⟨p.user, String.ofList (p.name.toList.take i)⟩ := by
  rw [ancestors, Text.headsBefore_eq_map_range, List.map_map, String.length_toList]
  rfl

theorem length_ancestors (p : Path) (d : Char) : (p.ancestors d).length = p.name.toList.count d := by
  rw [ancestors, List.length_map, Text.length_headsBefore]

/-! ## From the right -/

/-- A mailbox with those that enclose it, outermost first. -/
def through (d : Char) : Option Path → List Path
  | none => []
  | some q => q.ancestors d ++ [q]

/-- What encloses a mailbox is its parent and what encloses that. -/
theorem ancestors_eq_through (p : Path) (d : Char) : p.ancestors d = through d (p.parent? d) := by
  unfold parent?
  cases hcut : Text.cutLast d p.name.toList with
  | none => exact ancestors_eq_nil (Text.cutLast_eq_none_iff.mp hcut)
  | some cut =>
    obtain ⟨front, last⟩ := cut
    obtain ⟨hname, hlast⟩ := Text.append_of_cutLast hcut
    show p.ancestors d = (p.sibling front).ancestors d ++ [p.sibling front]
    rw [ancestors, ancestors, sibling_name, hname, Text.headsBefore_append hlast, List.map_append]
    rfl

theorem parent?_eq_getLast? (p : Path) (d : Char) : p.parent? d = (p.ancestors d).getLast? := by
  rw [ancestors_eq_through]
  cases p.parent? d with
  | none => rfl
  | some q => rw [through, List.getLast?_concat]

/-- The way up to the parent and back down by the last component. -/
theorem child_of_parent? (h : p.parent? d = some q) : q.child (p.leaf d) d = p := by
  obtain ⟨hnone, -⟩ | ⟨r, hr, huser, hname⟩ := parent?_cases p d
  · rw [hnone] at h
    cases h
  · obtain rfl : r = q := Option.some.inj (hr.symm.trans h)
    exact (eq_sibling_iff.mpr ⟨huser.symm, hname⟩).symm

/-- One round of going up: the mailbox that was reached is noted, and its parent comes next. Where there is
none, nothing happens any more. -/
def climb (d : Char) : Option Path × List Path → Option Path × List Path
  | (some q, noted) => (q.parent? d, noted ++ [q])
  | (none, noted) => (none, noted)

/-- A round keeps what is noted and what is still to be noted, taken together. -/
theorem climb_keeps (d : Char) (s : Option Path × List Path) :
    (climb d s).2 ++ (through d (climb d s).1).reverse = s.2 ++ (through d s.1).reverse := by
  obtain ⟨reached, noted⟩ := s
  cases reached with
  | none => rfl
  | some q =>
    show noted ++ [q] ++ (through d (q.parent? d)).reverse = noted ++ (q.ancestors d ++ [q]).reverse
    rw [← ancestors_eq_through, List.reverse_concat, List.append_assoc, List.singleton_append]

/-- A round leaves one mailbox less to be noted. -/
theorem length_through_climb (d : Char) (s : Option Path × List Path) :
    (through d (climb d s).1).length = (through d s.1).length - 1 := by
  obtain ⟨reached, noted⟩ := s
  cases reached with
  | none => rfl
  | some q =>
    show (through d (q.parent? d)).length = (q.ancestors d ++ [q]).length - 1
    rw [← ancestors_eq_through, List.length_append, List.length_singleton, Nat.add_sub_cancel]

theorem through_eq_nil_iff {reached : Option Path} : through d reached = [] ↔ reached = none := by
  cases reached with
  | none => simp [through]
  | some q => simp [through]

/-- What all rounds keep. Induction on the rounds, the last one taken apart. -/
theorem iterate_climb (d : Char) (s : Option Path × List Path) (n : ℕ) :
    ((climb d)^[n] s).2 ++ (through d ((climb d)^[n] s).1).reverse = s.2 ++ (through d s.1).reverse ∧
      (through d ((climb d)^[n] s).1).length = (through d s.1).length - n := by
  induction n with
  | zero => exact ⟨rfl, rfl⟩
  | succ n ih =>
    rw [Function.iterate_succ_apply', climb_keeps, length_through_climb, ih.2]
    exact ⟨ih.1, by omega⟩

/-- Going up ends after one round for each delimiter in the name, and not before. -/
theorem climb_ends (p : Path) (d : Char) :
    (climb d)^[p.name.toList.count d] (p.parent? d, []) = (none, (p.ancestors d).reverse) ∧
      ∀ n < p.name.toList.count d, ((climb d)^[n] (p.parent? d, [])).1 ≠ none := by
  have hlength : (through d (p.parent? d)).length = p.name.toList.count d := by
    rw [← ancestors_eq_through, length_ancestors]
  constructor
  · obtain ⟨hkeeps, hleft⟩ := iterate_climb d (p.parent? d, []) (p.name.toList.count d)
    rw [hlength, Nat.sub_self, List.length_eq_zero_iff] at hleft
    rw [hleft, ← ancestors_eq_through, List.reverse_nil, List.append_nil, List.nil_append] at hkeeps
    exact Prod.ext (through_eq_nil_iff.mp hleft) hkeeps
  · intro n hn hend
    have hleft := (iterate_climb d (p.parent? d, []) n).2
    rw [through_eq_nil_iff.mpr hend, hlength, List.length_nil] at hleft
    omega

/-! ## Up and down -/

/-- **Going up and down.** Going from parent to parent ends after one round for each delimiter in the name,
and it has then passed the ancestors, innermost first. From the left, the ancestors are the mailboxes of the
same user named by the parts of the name before each delimiter: one for each, by increasing length, never the
mailbox itself, and each with those before it for its own ancestors. The parent is the last of them. Its child
by the last component is the mailbox again, and a child made with a component that has no delimiter has the
mailbox for its parent and this component for its last one. -/
theorem ancestors_exact (p : Path) (d : Char) :
    ((climb d)^[p.name.toList.count d] (p.parent? d, []) = (none, (p.ancestors d).reverse) ∧
      ∀ n < p.name.toList.count d, ((climb d)^[n] (p.parent? d, [])).1 ≠ none) ∧
    p.ancestors d = ((List.range p.name.length).filter (p.name.toList[·]? = some d)).map (fun i =>
      ⟨p.user, String.ofList (p.name.toList.take i)⟩) ∧
    (p.ancestors d).length = p.name.toList.count d ∧
    ((p.ancestors d).Pairwise fun a b => a.name.length < b.name.length) ∧
    p ∉ p.ancestors d ∧
    (∀ before a after, p.ancestors d = before ++ a :: after → a.ancestors d = before) ∧
    p.parent? d = (p.ancestors d).getLast? ∧
    (∀ q, p.parent? d = some q → q.child (p.leaf d) d = p) ∧
    ∀ leaf : String, d ∉ leaf.toList →
      (p.child leaf d).parent? d = some p ∧ (p.child leaf d).leaf d = leaf := by
  refine ⟨climb_ends p d, ancestors_eq_map_range p d, length_ancestors p d, pairwise_ancestors p d,
    not_mem_ancestors_self p d, ?_, parent?_eq_getLast? p d, ?_, ?_⟩
  · intro before a after hsplit
    exact ancestors_of_split hsplit
  · intro q hq
    exact child_of_parent? hq
  · intro leaf hleaf
    exact ⟨parent?_child hleaf, leaf_child hleaf⟩

/-- A name with delimiters at both ends and side by side: four ancestors, the outermost of them without a
name, and children below the mailbox itself. -/
theorem ancestors_exact_empty_components :
    let p : Path := ⟨"ann", ".Work..2024."⟩
    let q : Path := ⟨"ann", ".Work..2024"⟩
    let names : List String := ["", ".Work", ".Work.", ".Work..2024"]
    p.ancestors '.' = names.map (⟨"ann", ·⟩) ∧
    (⟨"ann", ".Work."⟩ : Path).ancestors '.' = (names.take 2).map (⟨"ann", ·⟩) ∧
    p.parent? '.' = some q ∧ q.child "" '.' = p ∧
    '.' ∉ "May".toList ∧ (p.child "May" '.').parent? '.' = some p ∧ (p.child "May" '.').leaf '.' = "May" := by
  intro p q names
  obtain ⟨-, hplaces, -, -, -, hbefore, hlast, hback, hchild⟩ := ancestors_exact p '.'
  have hall : p.ancestors '.' = names.map (⟨"ann", ·⟩) := by
    rw [hplaces]
    decide +kernel
  have hparent : p.parent? '.' = some q := by
    rw [hlast, hall]
    rfl
  have hempty : p.leaf '.' = "" := by decide +kernel
  have hfree : '.' ∉ "May".toList := by decide
  refine ⟨hall, hbefore _ _ [q] hall, hparent, ?_, hfree, hchild "May" hfree⟩
  rw [← hempty]
  exact hback q hparent

end MailServer.Mailbox.Path
