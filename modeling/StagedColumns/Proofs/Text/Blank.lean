import Mathlib.Data.List.DropRight
import StagedColumns.Proofs.Text.Split
import StagedColumns.Text.Blank
import StagedColumns.Text.Digit

/-!
# Trimmed texts

A text is bare if it has no blank at either end. Trimming leaves a bare text, and a bare text as it
is. No blank is a digit, so blanks cannot be taken for a part of a number.
-/

set_option autoImplicit false

namespace StagedColumns.Text

theorem mem_of_inRanges {ranges : List (Nat × Nat)} {code : Nat} (h : inRanges ranges code = true) :
    ∃ range ∈ ranges, range.1 ≤ code ∧ code ≤ range.2 := by
  obtain ⟨range, hrange, hwithin⟩ := List.any_eq_true.mp h
  rw [Bool.and_eq_true, decide_eq_true_iff, decide_eq_true_iff] at hwithin
  exact ⟨range, hrange, hwithin⟩

/-- The characters have no blank at either end. -/
structure Bare (cs : List Char) : Prop where
  front : ∀ h : cs ≠ [], isBlank (cs.head h) = false
  back : ∀ h : cs ≠ [], isBlank (cs.getLast h) = false

theorem trimBlanks_eq (cs : List Char) :
    trimBlanks cs = (cs.dropWhile isBlank).rdropWhile isBlank :=
  rfl

/-- Trimming leaves a bare text. -/
theorem bare_trimBlanks (cs : List Char) : Bare (trimBlanks cs) where
  front h := by
    have hstart : trimBlanks cs <+: cs.dropWhile isBlank := List.rdropWhile_prefix isBlank _
    have hne : cs.dropWhile isBlank ≠ [] := by
      intro hnil
      exact h (List.prefix_nil.mp (hnil ▸ hstart))
    rw [hstart.head h]
    exact Bool.not_eq_true _ ▸ List.head_dropWhile_not isBlank hne
  back h := Bool.not_eq_true _ ▸ List.rdropWhile_last_not isBlank _ h

/-- A bare text stays as it is. -/
theorem trimBlanks_of_bare {cs : List Char} (h : Bare cs) : trimBlanks cs = cs := by
  rw [trimBlanks_eq]
  have hfront : cs.dropWhile isBlank = cs := by
    cases cs with
    | nil => rfl
    | cons c rest => exact List.dropWhile_cons_of_neg (by simpa using h.front (by simp))
  rw [hfront, List.rdropWhile_eq_self_iff]
  exact fun hne ↦ by simp [h.back hne]

/-- A text without blanks is bare. -/
theorem bare_of_forall {cs : List Char} (h : ∀ c ∈ cs, isBlank c = false) : Bare cs where
  front hne := h _ (List.head_mem hne)
  back hne := h _ (List.getLast_mem hne)

theorem Bare.append {front back : List Char} (hfront : Bare front) (hback : Bare back) :
    Bare (front ++ back) where
  front h := by
    by_cases hne : front = []
    · subst hne
      exact hback.front h
    · rw [List.head_append_of_ne_nil hne]
      exact hfront.front hne
  back h := by
    by_cases hne : back = []
    · subst hne
      simpa using hfront.back (by simpa using h)
    · rw [List.getLast_append_of_ne_nil h hne]
      exact hback.back hne

/-! ### Blanks around a text -/

section Around

variable {front back cs : List Char}

theorem trimBlanks_blanks_append (h : ∀ c ∈ front, isBlank c = true) :
    trimBlanks (front ++ cs) = trimBlanks cs := by
  rw [trimBlanks_eq, List.dropWhile_append_of_pos h, trimBlanks_eq]

theorem trimBlanks_append_blanks (h : ∀ c ∈ back, isBlank c = true) :
    trimBlanks (cs ++ back) = trimBlanks cs := by
  rw [trimBlanks_eq, trimBlanks_eq, List.dropWhile_append]
  split
  · next hblank =>
    rw [List.isEmpty_iff.mp hblank, List.dropWhile_eq_nil_iff.mpr h]
  · rw [List.rdropWhile, List.reverse_append,
      List.dropWhile_append_of_pos fun c hc ↦ h c (List.mem_reverse.mp hc), ← List.rdropWhile]

/-- A text is what trimming leaves, with blanks around it. -/
theorem exists_blanks_around (cs : List Char) :
    ∃ front back, (∀ c ∈ front, isBlank c = true) ∧ (∀ c ∈ back, isBlank c = true) ∧
      cs = front ++ trimBlanks cs ++ back := by
  refine ⟨cs.takeWhile isBlank, (cs.dropWhile isBlank).rtakeWhile isBlank,
    fun c ↦ List.mem_takeWhile_imp, fun c ↦ List.mem_rtakeWhile_imp, ?_⟩
  rw [trimBlanks_eq, List.append_assoc, List.rdropWhile_append_rtakeWhile,
    List.takeWhile_append_dropWhile]

theorem trimmed_parts_blanks_append {separates : Char → Bool}
    (hseparates : ∀ c, isBlank c = true → separates c = false)
    (h : ∀ c ∈ front, isBlank c = true) :
    (splitWhere separates (front ++ cs)).map trimBlanks =
      (splitWhere separates cs).map trimBlanks := by
  have hwhole : ∀ c ∈ front, separates c = false := fun c hc ↦ hseparates c (h c hc)
  cases cs using cut_induction separates with
  | whole cs hcs =>
    rw [splitWhere_whole (List.forall_mem_append.mpr ⟨hwhole, hcs⟩), splitWhere_whole hcs,
      List.map_singleton, List.map_singleton, trimBlanks_blanks_append h]
  | cut part c rest hpart hc =>
    rw [← List.append_assoc, splitWhere_cut hc, splitWhere_cut hc,
      splitWhere_whole (List.forall_mem_append.mpr ⟨hwhole, hpart⟩), splitWhere_whole hpart,
      List.map_append, List.map_append, List.map_singleton, List.map_singleton,
      trimBlanks_blanks_append h]

theorem trimmed_parts_append_blanks {separates : Char → Bool}
    (hseparates : ∀ c, isBlank c = true → separates c = false)
    (h : ∀ c ∈ back, isBlank c = true) :
    (splitWhere separates (cs ++ back)).map trimBlanks =
      (splitWhere separates cs).map trimBlanks := by
  have hwhole : ∀ c ∈ back, separates c = false := fun c hc ↦ hseparates c (h c hc)
  induction cs using cut_induction separates with
  | whole cs hcs =>
    rw [splitWhere_whole (List.forall_mem_append.mpr ⟨hcs, hwhole⟩), splitWhere_whole hcs,
      List.map_singleton, List.map_singleton, trimBlanks_append_blanks h]
  | cut part c rest hpart hc ih =>
    rw [List.append_assoc, List.cons_append, splitWhere_cut hc, splitWhere_cut hc, List.map_append,
      List.map_append, ih]

/-- Where a text is cut at characters that are no blanks, and the parts are trimmed, it makes no
difference whether it is trimmed before. -/
theorem map_trimBlanks_splitWhere {separates : Char → Bool}
    (hseparates : ∀ c, isBlank c = true → separates c = false) (cs : List Char) :
    (splitWhere separates (trimBlanks cs)).map trimBlanks =
      (splitWhere separates cs).map trimBlanks := by
  obtain ⟨front, back, hfront, hback, hcs⟩ := exists_blanks_around cs
  conv_rhs => rw [hcs, List.append_assoc]
  rw [trimmed_parts_blanks_append hseparates hfront, trimmed_parts_append_blanks hseparates hback]

end Around

/-- No blank is a digit in any script. -/
theorem digitValue?_of_isBlank {c : Char} (h : isBlank c = true) : digitValue? c = none := by
  have happart : ∀ range ∈ blankRanges, ∀ start ∈ zeroDigits,
      range.2 < start ∨ start + 10 ≤ range.1 := by
    decide
  obtain ⟨range, hrange, hwithin⟩ := mem_of_inRanges h
  rw [digitValue?, Option.map_eq_none_iff, List.find?_eq_none]
  intro start hstart
  rw [Bool.and_eq_true, decide_eq_true_iff, decide_eq_true_iff]
  rcases happart range hrange start hstart with hlt | hle
  · omega
  · omega

/-- No blank is a hexadecimal digit. -/
theorem hexValue?_of_isBlank {c : Char} (h : isBlank c = true) : hexValue? c = none := by
  have happart : ∀ range ∈ blankRanges, range.2 < '0'.toNat ∨ 'f'.toNat < range.1 := by
    decide
  obtain ⟨range, hrange, hwithin⟩ := mem_of_inRanges h
  have houtside : c.toNat < '0'.toNat ∨ 'f'.toNat < c.toNat := by
    rcases happart range hrange with hlt | hlt
    · exact .inl (by omega)
    · exact .inr (by omega)
  have horder : '0'.toNat = 48 ∧ '9'.toNat = 57 ∧ 'a'.toNat = 97 ∧ 'f'.toNat = 102 ∧
      'A'.toNat = 65 ∧ 'F'.toNat = 70 := ⟨rfl, rfl, rfl, rfl, rfl, rfl⟩
  unfold hexValue?
  rw [if_neg (by omega), if_neg (by omega), if_neg (by omega)]

end StagedColumns.Text
