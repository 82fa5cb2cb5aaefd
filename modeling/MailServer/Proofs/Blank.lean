import Mathlib.Data.List.DropRight
import MailServer.Text.Basic

/-!
# Text without the blanks around it

A text is the blanks at its beginning, the text without blanks at either end, and the blanks at its end. So
blanks that are put around a text do not change what is left of it. No letter is a blank, in either case, so
the same is left of texts that differ in letter case.

* `Blanks`, `Padded` — blanks and nothing else, and a text with blanks around it.
* `padded_trimChars`, `Padded.trimChars_eq` — what is left of a text.
* `sameFolded_trimChars` — what is left of texts that differ in letter case.
-/

namespace MailServer.Text

/-- All of the characters are blanks. -/
def Blanks (cs : List Char) : Prop := ∀ c ∈ cs, isBlank c = true

-- through the characters of the text, and not through all characters
instance (cs : List Char) : Decidable (Blanks cs) := List.decidableBAll _ cs

/-- The text `core` with blanks around it. -/
def Padded (core cs : List Char) : Prop :=
  ∃ before after, Blanks before ∧ Blanks after ∧ cs = before ++ core ++ after

variable {core cs before after : List Char}

theorem blanks_nil : Blanks [] := fun _ hc => absurd hc List.not_mem_nil

theorem Blanks.padded_append (h : Blanks before) (core : List Char) : Padded core (before ++ core) :=
  ⟨before, [], h, blanks_nil, (List.append_nil _).symm⟩

theorem Blanks.append_padded (h : Blanks after) (core : List Char) : Padded core (core ++ after) :=
  ⟨[], after, blanks_nil, h, rfl⟩

/-! ## What is left -/

theorem trimChars_eq (cs : List Char) : trimChars cs = (cs.dropWhile isBlank).rdropWhile isBlank := rfl

theorem rdropWhile_append_blanks (cs : List Char) (h : Blanks after) :
    (cs ++ after).rdropWhile isBlank = cs.rdropWhile isBlank := by
  rw [List.rdropWhile, List.reverse_append,
    List.dropWhile_append_of_pos fun c hc => h c (List.mem_reverse.mp hc), List.rdropWhile]

/-- Blanks around a text do not count. -/
theorem Padded.trimChars_eq (h : Padded core cs) : trimChars cs = trimChars core := by
  obtain ⟨before, after, hbefore, hafter, rfl⟩ := h
  rw [Text.trimChars_eq, List.append_assoc, List.dropWhile_append_of_pos hbefore, List.dropWhile_append]
  split
  · -- the text itself is blank
    rename_i hempty
    have hcore : core.dropWhile isBlank = [] := List.isEmpty_iff.mp hempty
    rw [Text.trimChars_eq, hcore, List.dropWhile_eq_nil_iff.mpr hafter]
  · rw [rdropWhile_append_blanks _ hafter, Text.trimChars_eq]

/-- A text that neither begins nor ends with a blank is left as it is. -/
theorem trimChars_of_ends (hhead : ∀ c, cs.head? = some c → isBlank c = false)
    (hlast : ∀ c, cs.getLast? = some c → isBlank c = false) : trimChars cs = cs := by
  have hfront : cs.dropWhile isBlank = cs := by
    cases cs with
    | nil => rfl
    | cons c cs => exact List.dropWhile_cons_of_neg (Bool.eq_false_iff.mp (hhead c rfl))
  rw [trimChars_eq, hfront, List.rdropWhile_eq_self_iff]
  intro hne
  exact Bool.eq_false_iff.mp (hlast _ (List.getLast?_eq_some_getLast hne))

/-- Of every text blanks are dropped, and nothing else. -/
theorem padded_trimChars (cs : List Char) : Padded (trimChars cs) cs := by
  refine ⟨cs.takeWhile isBlank, (cs.dropWhile isBlank).rtakeWhile isBlank, ?_, ?_, ?_⟩
  · exact fun c hc => List.mem_takeWhile_imp hc
  · exact fun c hc => List.mem_rtakeWhile_imp hc
  · rw [trimChars_eq, List.append_assoc, List.rdropWhile_append_rtakeWhile,
      List.takeWhile_append_dropWhile]

/-! ## Letter case -/

/-- From A to z there are no blanks. -/
theorem isBlank_eq_false_of_letter {c : Char} (hleast : 65 ≤ c.toNat) (hmost : c.toNat ≤ 122) :
    isBlank c = false := by
  simp [isBlank]
  omega

theorem isBlank_toLower (c : Char) : isBlank c.toLower = isBlank c := by
  delta Char.toLower
  split
  · rename_i hcapital
    have hleast : 65 ≤ c.toNat := UInt32.le_iff_toNat_le.mp hcapital.1
    have hmost : c.toNat ≤ 90 := UInt32.le_iff_toNat_le.mp hcapital.2
    have hlower : ∀ h, (Char.mk (c.val + ('a'.val - 'A'.val)) h).toNat = c.toNat + 32 := by
      intro h
      show (c.val + ('a'.val - 'A'.val)).toNat = c.toNat + 32
      have hvalue : c.val.toNat = c.toNat := rfl
      have hstep : ('a'.val - 'A'.val).toNat = 32 := rfl
      rw [UInt32.toNat_add, hvalue, hstep]
      omega
    rw [isBlank_eq_false_of_letter hleast (by omega), isBlank_eq_false_of_letter] <;>
      · rw [hlower]
        omega
  · rfl

theorem trimChars_map_toLower (cs : List Char) :
    trimChars (cs.map Char.toLower) = (trimChars cs).map Char.toLower := by
  have hblank : isBlank ∘ Char.toLower = isBlank := funext isBlank_toLower
  rw [trimChars, trimChars, List.dropWhile_map, hblank, ← List.map_reverse, List.dropWhile_map, hblank,
    ← List.map_reverse]

theorem sameFolded_trimChars {cs ds : List Char} (h : sameFolded (String.ofList cs) (String.ofList ds) = true) :
    sameFolded (String.ofList (trimChars cs)) (String.ofList (trimChars ds)) = true := by
  simp only [sameFolded_iff, String.toList_ofList] at h ⊢
  rw [← trimChars_map_toLower, ← trimChars_map_toLower, h]

end MailServer.Text
