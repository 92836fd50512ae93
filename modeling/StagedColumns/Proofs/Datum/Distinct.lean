import StagedColumns.Datum.Equality

/-!
# Data without repetitions

Leaving out repetitions keeps the first of equal items in its place. For integers and for texts
being equal data is being equal, so there the items are those of `List.eraseDups`.
-/

set_option autoImplicit false

namespace StagedColumns.Datum

variable {α : Type}

/-- Leaving out repetitions adds to what is kept already. -/
theorem exists_eq_append_of_distinctFrom {kept items all : List Datum}
    (h : distinctFrom kept items = .ok all) : ∃ more, all = kept ++ more := by
  induction items generalizing kept with
  | nil =>
    cases h
    exact ⟨[], (List.append_nil _).symm⟩
  | cons item rest ih =>
    unfold distinctFrom at h
    split at h
    · cases h
    · split at h
      · exact ih h
      · obtain ⟨more, hmore⟩ := ih h
        exact ⟨item :: more, by rw [hmore, List.append_assoc, List.singleton_append]⟩

theorem exists_eq_cons_of_distinct {item : Datum} {rest all : List Datum}
    (h : distinct (item :: rest) = .ok all) : ∃ more, all = item :: more := by
  rw [distinct, distinctFrom] at h
  split at h
  · cases h
  · have hrest : distinctFrom [item] rest = .ok all := h
    exact exists_eq_append_of_distinctFrom hrest

/-- Values that stand for themselves: two are equal data only if they are equal, and no part of one
may change. -/
structure Faithful [BEq α] (wrap : α → Datum) : Prop where
  same_iff (a b : α) : (wrap a).same (wrap b) = (a == b)
  settled (a : α) : (wrap a).changeable? = none

theorem faithful_int : Faithful Datum.int :=
  ⟨fun _ _ ↦ rfl, fun _ ↦ rfl⟩

theorem faithful_text : Faithful Datum.text :=
  ⟨fun _ _ ↦ rfl, fun _ ↦ rfl⟩

theorem distinctFrom_map [BEq α] [LawfulBEq α] {wrap : α → Datum} (hwrap : Faithful wrap)
    (kept items : List α) :
    distinctFrom (kept.map wrap) (items.map wrap) =
      .ok ((kept ++ (items.filter fun a ↦ !kept.contains a).eraseDups).map wrap) := by
  induction items generalizing kept with
  | nil => simp [distinctFrom]
  | cons a rest ih =>
    have hany : ((kept.map wrap).any fun earlier ↦ earlier.same (wrap a)) = kept.contains a := by
      simp only [List.any_map, Function.comp_def, hwrap.same_iff, List.contains_eq_any_beq]
      congr 1
      funext b
      exact Bool.beq_comm
    rw [List.map_cons, distinctFrom, hwrap.settled]
    simp only [hany]
    by_cases ha : kept.contains a = true
    · rw [if_pos ha, ih, List.filter_cons_of_neg (by simpa using ha)]
    · have hkept : kept.map wrap ++ [wrap a] = (kept ++ [a]).map wrap := by simp
      have hfresh : (fun b ↦ !(kept ++ [a]).contains b) =
          fun b ↦ !b == a && !kept.contains b := by
        funext b
        rw [List.contains_append, Bool.not_or, Bool.and_comm]
        simp
      rw [if_neg ha, hkept, ih, List.filter_cons_of_pos (by simpa using ha), List.eraseDups_cons,
        List.append_assoc, List.singleton_append, List.filter_filter, hfresh]

theorem distinct_map [BEq α] [LawfulBEq α] {wrap : α → Datum} (hwrap : Faithful wrap)
    (items : List α) : distinct (items.map wrap) = .ok (items.eraseDups.map wrap) := by
  have h := distinctFrom_map hwrap [] items
  have hall : (items.filter fun a ↦ !([] : List α).contains a) = items := by simp
  rwa [hall] at h

/-- A value is the same as one of the values without repetitions if it is one of them. -/
theorem Faithful.exists_same_iff [BEq α] [LawfulBEq α] {wrap : α → Datum} (hwrap : Faithful wrap)
    (a : α) (items : List α) :
    (∃ v ∈ items.eraseDups.map wrap, (wrap a).same v = true) ↔ a ∈ items := by
  constructor
  · rintro ⟨v, hv, hsame⟩
    obtain ⟨b, hb, rfl⟩ := List.mem_map.mp hv
    rw [hwrap.same_iff, beq_iff_eq] at hsame
    exact hsame ▸ List.mem_eraseDups.mp hb
  · intro ha
    exact ⟨wrap a, List.mem_map_of_mem (List.mem_eraseDups.mpr ha),
      (hwrap.same_iff a a).trans (beq_self_eq_true a)⟩

end StagedColumns.Datum
