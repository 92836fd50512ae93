import StagedColumns.Datum.Equality

/-!
# Listings

A listing gives values under names, in the order in which the names first came in. The names are
texts as a rule; but where callers hand in what is to be listed, any values can be names. Equal
values are one name, and it stays as it came in first. No two names of a listing are equal.
-/

set_option autoImplicit false

namespace StagedColumns

/-- Writes a value under a name: in place if an equal name is there, else at the end. -/
def putNamed (name value : Datum) : List (Datum × Datum) → List (Datum × Datum)
  | [] => [(name, value)]
  | entry :: rest =>
    if entry.1.same name then (entry.1, value) :: rest else entry :: putNamed name value rest

theorem eq_or_mem_of_mem_putNamed {name value other : Datum} {entries : List (Datum × Datum)}
    (h : other ∈ (putNamed name value entries).map Prod.fst) :
    other = name ∨ other ∈ entries.map Prod.fst := by
  induction entries with
  | nil => simpa [putNamed] using h
  | cons entry rest ih =>
    by_cases same : entry.1.same name
    · rw [putNamed, if_pos same] at h
      exact Or.inr h
    · rw [putNamed, if_neg same, List.map_cons, List.mem_cons] at h
      rcases h with rfl | h
      · exact Or.inr List.mem_cons_self
      · exact (ih h).imp_right (List.mem_cons_of_mem _)

/-- The names differ from one another. -/
def Apart (names : List Datum) : Prop :=
  names.Pairwise fun name other ↦ name.same other = false

theorem apart_putNamed {name value : Datum} {entries : List (Datum × Datum)}
    (apart : Apart (entries.map Prod.fst)) :
    Apart ((putNamed name value entries).map Prod.fst) := by
  induction entries with
  | nil => exact List.pairwise_singleton _ _
  | cons entry rest ih =>
    obtain ⟨fresh, apartRest⟩ := List.pairwise_cons.1 apart
    by_cases same : entry.1.same name
    · rw [putNamed, if_pos same]
      exact apart
    · rw [putNamed, if_neg same]
      refine List.pairwise_cons.2 ⟨fun other h ↦ ?_, ih apartRest⟩
      rcases eq_or_mem_of_mem_putNamed h with rfl | h
      · exact Bool.eq_false_iff.2 same
      · exact fresh other h

/-- Values under names, in order. -/
structure Listing where
  entries : List (Datum × Datum)
  apart : Apart (entries.map Prod.fst)

namespace Listing

/-- The listing without entries. -/
def empty : Listing :=
  ⟨[], List.Pairwise.nil⟩

/-- The listing with the value written under the name. -/
def put (l : Listing) (name value : Datum) : Listing :=
  ⟨putNamed name value l.entries, apart_putNamed l.apart⟩

/-- The listing with the entries written one after the other. -/
def putAll (l : Listing) (entries : List (Datum × Datum)) : Listing :=
  entries.foldl (fun built entry ↦ built.put entry.1 entry.2) l

/-- The value under the name. -/
def get? (l : Listing) (name : Datum) : Option Datum :=
  (l.entries.find? fun entry ↦ entry.1.same name).map Prod.snd

/-- The listing has no entries. -/
def isEmpty (l : Listing) : Bool :=
  l.entries.isEmpty

end Listing

end StagedColumns
