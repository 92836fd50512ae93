import Mathlib.Data.List.Forall2
import StagedColumns.Checked

/-!
# When readings accept

A larger reading accepts exactly if all its parts do, and then its value is made of theirs: a lemma
for each way in which readings are put together. A text is read from a text or from the bytes that
encode it.
-/

set_option autoImplicit false

namespace StagedColumns

/-- The value is the text, or the bytes that encode it. -/
inductive Datum.Spells : Datum → String → Prop
  | text (s : String) : Spells (.text s) s
  | bytes (s : String) : Spells (.bytes s.toUTF8.data.toList) s

/-- Bytes are read as the text whose bytes they are. -/
theorem fromUTF8?_eq_some_iff {data : ByteArray} {s : String} :
    String.fromUTF8? data = some s ↔ s.toUTF8 = data := by
  unfold String.fromUTF8?
  constructor
  · intro h
    split_ifs at h
    cases h
    rfl
  · rintro rfl
    exact dif_pos s.isValidUTF8

theorem Datum.readText_eq_ok_iff {given : Datum} {s : String} :
    given.readText = .ok s ↔ given.Spells s := by
  constructor
  · intro h
    cases given with
    | text other =>
      cases h
      exact .text s
    | bytes data =>
      rw [readText] at h
      cases hdecoded : String.fromUTF8? ⟨data.toArray⟩ with
      | none =>
        rw [hdecoded] at h
        cases h
      | some other =>
        rw [hdecoded] at h
        cases h
        have hdata : s.toUTF8.data.toList = data := by
          rw [fromUTF8?_eq_some_iff.mp hdecoded]
        exact hdata ▸ .bytes s
    | _ => cases h
  · intro h
    cases h with
    | text s => rfl
    | bytes s =>
      have hdecoded : String.fromUTF8? ⟨s.toUTF8.data.toList.toArray⟩ = some s :=
        fromUTF8?_eq_some_iff.mpr rfl
      rw [readText, hdecoded]

namespace Checked

variable {α β : Type}

@[simp] theorem accept_inj {value other : α} : accept value = accept other ↔ value = other :=
  Except.ok.injEq value other ▸ Iff.rfl

@[simp] theorem reject_ne_accept {location : List String} {rule : Rule} {value : α} :
    reject location rule ≠ accept value :=
  nofun

theorem apply_eq_accept_iff {f : Checked (α → β)} {part : Checked α} {value : β} :
    f.apply part = accept value ↔
      ∃ g a, f = accept g ∧ part = accept a ∧ g a = value := by
  constructor
  · intro h
    cases f with
    | ok g =>
      cases part with
      | ok a =>
        cases h
        exact ⟨g, a, rfl, rfl, rfl⟩
      | error issues => cases h
    | error issues => cases part <;> cases h
  · rintro ⟨g, a, rfl, rfl, rfl⟩
    rfl

theorem eq_accept_iff_exists {part : Checked α} {value : α} :
    part = accept value ↔ ∃ read, part = accept read ∧ read = value := by
  simp

/-- Parts that are read one after the other accept one after the other. -/
theorem exists_apply_iff {f : Checked (α → β)} {part : Checked α} {such : β → Prop} :
    (∃ value, f.apply part = accept value ∧ such value) ↔
      ∃ g, f = accept g ∧ ∃ a, part = accept a ∧ such (g a) := by
  simp only [apply_eq_accept_iff]
  constructor
  · rintro ⟨_, ⟨g, a, hf, hpart, rfl⟩, hsuch⟩
    exact ⟨g, hf, a, hpart, hsuch⟩
  · rintro ⟨g, hf, a, hpart, hsuch⟩
    exact ⟨_, ⟨g, a, hf, hpart, rfl⟩, hsuch⟩

theorem map_eq_accept_iff {f : α → β} {part : Checked α} {value : β} :
    part.map f = accept value ↔ ∃ a, part = accept a ∧ f a = value := by
  simp [map, apply_eq_accept_iff]

theorem under_eq_accept_iff {name : String} {part : Checked α} {value : α} :
    part.under name = accept value ↔ part = accept value := by
  cases part with
  | ok other => rfl
  | error issues => exact iff_of_false nofun nofun

theorem withIssues_eq_accept_iff {value other : α} {issues : List Issue} :
    withIssues value issues = accept other ↔ issues = [] ∧ value = other := by
  cases issues with
  | nil =>
    constructor
    · intro h
      cases h
      exact ⟨rfl, rfl⟩
    · rintro ⟨-, rfl⟩
      rfl
  | cons issue rest =>
    constructor
    · intro h
      cases h
    · rintro ⟨h, -⟩
      cases h

theorem text_eq_accept_iff {location : List String} {given : Datum} {s : String} :
    text location given = accept s ↔ given.Spells s := by
  rw [text, ← Datum.readText_eq_ok_iff]
  cases given.readText with
  | ok other =>
    constructor <;> intro h <;> cases h <;> rfl
  | error rule =>
    constructor <;> intro h <;> cases h

end Checked

end StagedColumns
