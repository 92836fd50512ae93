/-!
# Maps in insertion order

A map from names to values that remembers the order in which the names first came in. Writing a name
that is already present changes its value and keeps its place; a new name goes to the end. Two maps
are equal exactly when they list the same names with the same values in the same order.
-/

set_option autoImplicit false

namespace StagedColumns

variable {α β : Type}

/-- Writes one entry into a list of entries: in place if the name is there, else at the end. -/
def putEntry (name : String) (value : α) : List (String × α) → List (String × α)
  | [] => [(name, value)]
  | entry :: rest =>
    if entry.1 = name then (name, value) :: rest else entry :: putEntry name value rest

theorem mem_names_putEntry {name other : String} {value : α} {entries : List (String × α)} :
    other ∈ (putEntry name value entries).map Prod.fst ↔
      other = name ∨ other ∈ entries.map Prod.fst := by
  induction entries with
  | nil => simp [putEntry]
  | cons entry rest ih =>
    by_cases same : entry.1 = name
    · simp [putEntry, same]
    · simp only [putEntry, same, if_false, List.map_cons, List.mem_cons, ih]
      constructor
      · rintro (h | h | h) <;> simp [h]
      · rintro (h | h | h) <;> simp [h]

theorem nodup_putEntry {name : String} {value : α} {entries : List (String × α)}
    (distinct : (entries.map Prod.fst).Nodup) :
    ((putEntry name value entries).map Prod.fst).Nodup := by
  induction entries with
  | nil => simp [putEntry]
  | cons entry rest ih =>
    obtain ⟨fresh, distinctRest⟩ := List.nodup_cons.1 distinct
    by_cases same : entry.1 = name
    · simp only [putEntry, same, if_true, List.map_cons, List.nodup_cons]
      exact ⟨same ▸ fresh, distinctRest⟩
    · simp only [putEntry, same, if_false, List.map_cons, List.nodup_cons]
      exact ⟨fun h ↦ (mem_names_putEntry.1 h).elim same fresh, ih distinctRest⟩

/-- A map from names to values in insertion order. -/
structure OrderedMap (α : Type) where
  entries : List (String × α)
  distinct : (entries.map Prod.fst).Nodup
deriving DecidableEq

namespace OrderedMap

/-- The map without entries. -/
def empty : OrderedMap α :=
  ⟨[], List.nodup_nil⟩

instance : EmptyCollection (OrderedMap α) :=
  ⟨empty⟩

/-- The map with the value written under the name. -/
def put (m : OrderedMap α) (name : String) (value : α) : OrderedMap α :=
  ⟨putEntry name value m.entries, nodup_putEntry m.distinct⟩

/-- The map with the entries written one after the other. -/
def putAll (m : OrderedMap α) (entries : List (String × α)) : OrderedMap α :=
  entries.foldl (fun built entry ↦ built.put entry.1 entry.2) m

/-- The map that lists the entries; of two entries with one name the later one gives the value and
the earlier one the place. -/
def ofList (entries : List (String × α)) : OrderedMap α :=
  empty.putAll entries

/-- The value under the name. -/
def get? (m : OrderedMap α) (name : String) : Option α :=
  m.entries.lookup name

/-- The name has a value. -/
def contains (m : OrderedMap α) (name : String) : Bool :=
  (m.get? name).isSome

/-- The names in order. -/
def names (m : OrderedMap α) : List String :=
  m.entries.map Prod.fst

/-- The values in the order of their names. -/
def values (m : OrderedMap α) : List α :=
  m.entries.map Prod.snd

/-- The number of names. -/
def size (m : OrderedMap α) : Nat :=
  m.entries.length

/-- The map has no entries. -/
def isEmpty (m : OrderedMap α) : Bool :=
  m.entries.isEmpty

/-- The entries of the first map, over which those of the second one are written. -/
def merge (m later : OrderedMap α) : OrderedMap α :=
  m.putAll later.entries

/-- The map without the name. -/
def erase (m : OrderedMap α) (name : String) : OrderedMap α :=
  ⟨m.entries.filter fun entry ↦ entry.1 ≠ name,
    (List.Sublist.map Prod.fst List.filter_sublist).nodup m.distinct⟩

/-- The map with the value written under the name, unless the name has a value. -/
def putNew (m : OrderedMap α) (name : String) (value : α) : OrderedMap α :=
  if m.contains name then m else m.put name value

/-- The map with another name for an entry: the value moves under the new name, which keeps its
place if it is there. -/
def rename (m : OrderedMap α) (name newName : String) : OrderedMap α :=
  match m.get? name with
  | some value => (m.erase name).put newName value
  | none => m

end OrderedMap

end StagedColumns
