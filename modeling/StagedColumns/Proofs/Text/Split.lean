import Mathlib.Data.List.Basic
import StagedColumns.Text.Split

/-!
# Parts and separators

Cutting at a character is the inverse of writing the character between parts that do not have it
(`splitOn_eq`). Where parts that are not empty stand between single separators, two separators side
by side are found only behind the parts (`cutAt?_intercalate_append`).
-/

set_option autoImplicit false

namespace StagedColumns.Text

theorem splitWhere_eq (separates : Char → Bool) (cs : List Char) :
    splitWhere separates cs = cs.splitOnP separates := by
  induction cs with
  | nil => rfl
  | cons c rest ih =>
    rw [List.splitOnP_cons_eq_if_modifyHead, splitWhere, ih]
    by_cases hc : separates c
    · rw [if_pos hc, if_pos hc]
    · rw [if_neg hc, if_neg hc]
      cases hparts : rest.splitOnP separates with
      | nil => exact absurd hparts (List.splitOnP_ne_nil _ _)
      | cons part parts => rfl

section Parts

variable {separates : Char → Bool}

theorem splitWhere_whole {cs : List Char} (h : ∀ c ∈ cs, separates c = false) :
    splitWhere separates cs = [cs] := by
  rw [splitWhere_eq, List.splitOnP_eq_singleton h]

theorem splitWhere_cut {c : Char} (h : separates c = true) (front back : List Char) :
    splitWhere separates (front ++ c :: back) =
      splitWhere separates front ++ splitWhere separates back := by
  rw [splitWhere_eq, splitWhere_eq, splitWhere_eq, List.splitOnP_append_cons front back h]

/-- What holds of a text that is not cut, and of a text that is cut for the first time if it holds
of what is behind that, holds of every text. -/
theorem cut_induction (separates : Char → Bool) {motive : List Char → Prop}
    (whole : ∀ cs, (∀ c ∈ cs, separates c = false) → motive cs)
    (cut : ∀ front c back, (∀ x ∈ front, separates x = false) → separates c = true →
      motive back → motive (front ++ c :: back)) (cs : List Char) : motive cs := by
  -- the induction is on the text, behind a part that is not cut
  suffices h : ∀ front, (∀ x ∈ front, separates x = false) → motive (front ++ cs) from h [] nofun
  induction cs with
  | nil => exact fun front hfront ↦ whole _ (by simpa using hfront)
  | cons c rest ih =>
    intro front hfront
    cases hc : separates c with
    | true => exact cut front c rest hfront hc (ih [] nofun)
    | false =>
      rw [List.append_cons]
      exact ih (front ++ [c]) (List.forall_mem_append.mpr ⟨hfront, by simpa using hc⟩)

end Parts

theorem splitOn_eq (separator : Char) (cs : List Char) :
    splitOn separator cs = cs.splitOn separator := by
  rw [List.splitOn_eq_splitOnP]
  exact splitWhere_eq _ cs

theorem eq_append_of_cutAt? {part cs front back : List Char}
    (h : cutAt? part cs = some (front, back)) : cs = front ++ part ++ back := by
  induction cs generalizing front with
  | nil =>
    rw [cutAt?] at h
    split at h
    · cases h
      simp [*]
    · cases h
  | cons c rest ih =>
    rw [cutAt?] at h
    cases hstart : part.isPrefixOf? (c :: rest) with
    | some later =>
      rw [hstart] at h
      cases h
      exact (List.append_eq_of_isPrefixOf?_eq_some hstart).symm
    | none =>
      rw [hstart] at h
      obtain ⟨halves, hhalves, heq⟩ := Option.map_eq_some_iff.mp h
      cases heq
      rw [ih hhalves]
      rfl

section Separator

variable {c : Char}

theorem cutAt?_cons_of_ne {x : Char} (hx : x ≠ c) (rest : List Char) :
    cutAt? [c, c] (x :: rest) =
      (cutAt? [c, c] rest).map fun halves ↦ (x :: halves.1, halves.2) := by
  have hstart : [c, c].isPrefixOf? (x :: rest) = none := by
    simp [List.isPrefixOf?, Ne.symm hx]
  rw [cutAt?, hstart]

theorem cutAt?_single {x : Char} (hx : x ≠ c) (rest : List Char) :
    cutAt? [c, c] (c :: x :: rest) =
      (cutAt? [c, c] (x :: rest)).map fun halves ↦ (c :: halves.1, halves.2) := by
  have hstart : [c, c].isPrefixOf? (c :: x :: rest) = none := by
    simp [List.isPrefixOf?, Ne.symm hx]
  rw [cutAt?, hstart]

theorem cutAt?_append_of_not_mem {front : List Char} (hfront : c ∉ front) (rest : List Char) :
    cutAt? [c, c] (front ++ rest) =
      (cutAt? [c, c] rest).map fun halves ↦ (front ++ halves.1, halves.2) := by
  induction front with
  | nil => simp
  | cons x front ih =>
    obtain ⟨hx, hfront⟩ := not_or.mp (mt List.mem_cons.mpr hfront)
    rw [List.cons_append, cutAt?_cons_of_ne (Ne.symm hx), ih hfront, Option.map_map]
    rfl

/-- Two separators side by side are not found among parts that are not empty. -/
theorem cutAt?_intercalate_append {parts : List (List Char)}
    (hparts : ∀ part ∈ parts, part ≠ [] ∧ c ∉ part) (rest : List Char) :
    cutAt? [c, c] ([c].intercalate parts ++ rest) =
      (cutAt? [c, c] rest).map fun halves ↦ ([c].intercalate parts ++ halves.1, halves.2) := by
  induction parts with
  | nil => simp
  | cons part others ih =>
    obtain ⟨⟨-, hpart⟩, hothers⟩ := List.forall_mem_cons.mp hparts
    cases others with
    | nil => simpa using cutAt?_append_of_not_mem hpart rest
    | cons next others =>
      obtain ⟨⟨hne, hnext⟩, -⟩ := List.forall_mem_cons.mp hothers
      obtain ⟨x, next, rfl⟩ := List.exists_cons_of_ne_nil hne
      -- the separator between two parts is followed by the first character of the next one
      have hx : x ≠ c := fun h ↦ hnext (h ▸ List.mem_cons_self)
      have ih := ih hothers
      rw [List.intercalate_cons_cons_left, List.cons_append] at ih
      rw [List.intercalate_cons_cons, List.intercalate_cons_cons_left, List.append_assoc,
        List.append_assoc, cutAt?_append_of_not_mem hpart, List.singleton_append, List.cons_append,
        cutAt?_single hx, ih, Option.map_map, Option.map_map]
      simp [Function.comp_def]

end Separator

end StagedColumns.Text
