import Mathlib.Data.List.Basic
import StagedColumns.Proofs.Field.Gate

/-!
# Default names

A field whose columns are not named has names that follow from its key. Whatever the key is, they
are different from it and from each other, and they are plain if the key is: a word with an
underscore means nothing else in a condition. Which keys share the name of the actor column is said
by `defaultActorColumn_eq_iff`: `rev` and `rev_user` do, but `rev_user` and `rev_user_user` do not.
-/

set_option autoImplicit false

namespace StagedColumns

open Sql

theorem Text.before?_eq_some_iff {tail s front : String} :
    Text.before? tail s = some front ↔ s = front ++ tail := by
  simp only [Text.before?, Option.map_eq_some_iff, List.isPrefixOf?_eq_some_iff_append_eq]
  constructor
  · rintro ⟨cs, hcs, rfl⟩
    have hchars : cs.reverse ++ tail.toList = s.toList := by
      simpa using congrArg List.reverse hcs
    rw [← String.ofList_toList (s := s), ← hchars, String.ofList_append, String.ofList_toList]
  · rintro rfl
    refine ⟨front.toList.reverse, ?_, ?_⟩
    · rw [String.toList_append, List.reverse_append]
    · rw [List.reverse_reverse, String.ofList_toList]

namespace UserField

/-- The key ends in `_user`. -/
def EndsInUser (key : String) : Prop :=
  ∃ front, key = front ++ "_user"

theorem endsInUser_iff {key : String} :
    EndsInUser key ↔ (Text.before? "_user" key).isSome = true := by
  simp only [EndsInUser, Option.isSome_iff_exists, Text.before?_eq_some_iff]

instance (key : String) : Decidable (EndsInUser key) :=
  decidable_of_iff' _ endsInUser_iff

theorem endsInUser_append (front : String) : EndsInUser (front ++ "_user") :=
  ⟨front, rfl⟩

theorem defaultActorColumn_append_user (front : String) :
    defaultActorColumn (front ++ "_user") = front ++ "_actor" := by
  rw [defaultActorColumn, Text.before?_eq_some_iff.mpr rfl, Option.getD_some]

theorem defaultActorColumn_of_not_endsInUser {key : String} (h : ¬ EndsInUser key) :
    defaultActorColumn key = key ++ "_actor" := by
  have hnone : Text.before? "_user" key = none := by
    rwa [endsInUser_iff, Bool.not_eq_true, Option.isSome_eq_false_iff, Option.isNone_iff_eq_none] at h
  rw [defaultActorColumn, hnone, Option.getD_none]

theorem defaultActorColumn_cases (key : String) :
    (∃ front, key = front ++ "_user" ∧ defaultActorColumn key = front ++ "_actor") ∨
      defaultActorColumn key = key ++ "_actor" := by
  by_cases h : EndsInUser key
  · obtain ⟨front, rfl⟩ := h
    exact .inl ⟨front, rfl, defaultActorColumn_append_user front⟩
  · exact .inr (defaultActorColumn_of_not_endsInUser h)

theorem defaultActorColumn_ne (key : String) : defaultActorColumn key ≠ key := by
  intro h
  have hlength := congrArg String.length h
  rcases defaultActorColumn_cases key with ⟨front, hkey, hactor⟩ | hactor
  · rw [hactor, hkey, String.length_append, String.length_append] at hlength
    exact absurd (Nat.add_left_cancel hlength) (by decide)
  · rw [hactor] at hlength
    simp [String.length_append] at hlength

theorem defaultTextColumn_ne (key : String) : defaultTextColumn key ≠ key := by
  intro h
  have hlength := congrArg String.length h
  simp [defaultTextColumn, String.length_append] at hlength

/-- The one default name ends in `t`, the other one in `r`. -/
theorem defaultTextColumn_ne_defaultActorColumn (key : String) :
    defaultTextColumn key ≠ defaultActorColumn key := by
  intro h
  have hlast := congrArg (fun name : String ↦ name.toList.getLast?) h
  rcases defaultActorColumn_cases key with ⟨front, -, hactor⟩ | hactor
  · rw [hactor] at hlast
    simp [defaultTextColumn, String.toList_append] at hlast
  · rw [hactor] at hlast
    simp [defaultTextColumn, String.toList_append] at hlast

theorem nodup_defaultColumns (key : String) :
    [key, defaultTextColumn key, defaultActorColumn key].Nodup := by
  simp [(defaultTextColumn_ne key).symm, (defaultActorColumn_ne key).symm,
    defaultTextColumn_ne_defaultActorColumn key]

/-- Different keys share the name of the actor column exactly if one of them does not end in `_user`
and the other one is that key with `_user` after it. -/
theorem defaultActorColumn_eq_iff {key other : String} :
    defaultActorColumn key = defaultActorColumn other ↔
      key = other ∨ (¬ EndsInUser other ∧ key = other ++ "_user") ∨
        (¬ EndsInUser key ∧ other = key ++ "_user") := by
  by_cases hkey : EndsInUser key
  · obtain ⟨front, rfl⟩ := hkey
    by_cases hother : EndsInUser other
    · -- both keys lose the same ending
      obtain ⟨more, rfl⟩ := hother
      rw [defaultActorColumn_append_user, defaultActorColumn_append_user, String.append_left_inj,
        String.append_left_inj]
      simp [endsInUser_append]
    · have hne : front ++ "_user" ≠ other := fun h ↦ hother ⟨front, h.symm⟩
      rw [defaultActorColumn_append_user, defaultActorColumn_of_not_endsInUser hother,
        String.append_left_inj, String.append_left_inj]
      simp [endsInUser_append, hne, hother]
  · by_cases hother : EndsInUser other
    · obtain ⟨more, rfl⟩ := hother
      have hne : key ≠ more ++ "_user" := fun h ↦ hkey ⟨more, h⟩
      rw [defaultActorColumn_append_user, defaultActorColumn_of_not_endsInUser hkey,
        String.append_left_inj, String.append_left_inj]
      simp [endsInUser_append, hne, hkey, eq_comm]
    · have hkeyNe : key ≠ other ++ "_user" := fun h ↦ hkey ⟨other, h⟩
      have hotherNe : other ≠ key ++ "_user" := fun h ↦ hother ⟨key, h⟩
      rw [defaultActorColumn_of_not_endsInUser hkey, defaultActorColumn_of_not_endsInUser hother,
        String.append_left_inj]
      simp [hkeyNe, hotherNe]

example : defaultActorColumn "rev" = defaultActorColumn "rev_user" ∧
    defaultActorColumn "rev_user" ≠ defaultActorColumn "rev_user_user" := by
  decide

/-- The field names neither the column of the user's name nor that of the actor id. -/
structure NamesNoColumn (field : UserField) : Prop where
  text : field.textColumn = none ∨ field.textColumn = some ""
  actor : field.actorColumn = none ∨ field.actorColumn = some ""

theorem NamesNoColumn.columnNames_eq {field : UserField} (h : field.NamesNoColumn) (key : String) :
    field.columnNames key = ⟨defaultTextColumn key, defaultActorColumn key⟩ := by
  unfold columnNames
  rcases h.text with htext | htext <;> rcases h.actor with hactor | hactor <;>
    rw [htext, hactor] <;> rfl

theorem hasDistinctNames_plain (key : String) : plain.HasDistinctNames key :=
  ⟨nodup_defaultColumns key, nofun, nofun⟩

/-! ### Plain default names -/

theorem isPlainName_defaultTextColumn {key : String} (hkey : isPlainName key = true) :
    isPlainName (defaultTextColumn key) = true :=
  isPlainName_append (isWord_of_isPlainName hkey) (by decide) (by decide)

theorem isPlainName_defaultActorColumn {key : String} (hkey : isPlainName key = true) :
    isPlainName (defaultActorColumn key) = true := by
  have hword := isWord_of_isPlainName hkey
  rcases defaultActorColumn_cases key with ⟨front, rfl, hactor⟩ | hactor
  · rw [hactor]
    by_cases hfront : front = ""
    · subst hfront
      decide
    · exact isPlainName_append (isWord_of_isWord_append hword hfront) (by decide) (by decide)
  · rw [hactor]
    exact isPlainName_append hword (by decide) (by decide)

theorem hasPlainNames_plain {key : String} (hkey : isPlainName key = true) :
    plain.HasPlainNames key :=
  ⟨hkey, isPlainName_defaultTextColumn hkey, isPlainName_defaultActorColumn hkey, nofun⟩

end UserField

end StagedColumns
