import StagedColumns.Proofs.OrderedMap
import StagedColumns.Proofs.Sql.Meaning
import StagedColumns.Storage

/-!
# Databases behind connections

What the statements that the library executes do to the tables of a database. An insertion adds a
row. Where a row with the same key exists, the other kind of insertion writes over the columns that
are to be replaced and leaves the rest of the row alone. `Handle.Reaches` is what is asked of a
connection: that it does so, unless an inserted row has the primary key of another one.

A connection is handed a statement beside its dialect. That this is what the text of the statement
says is `Handle.Reaches.executes_text`.
-/

set_option autoImplicit false

namespace StagedColumns

variable {ω : Type}

/-- The value that a row has in a column; a column without one is absent. -/
def cell (row : Row) (column : String) : Datum :=
  (row.get? column).getD .null

/-- The row has a value in a column, as a database compares values. -/
def hasIn (column : String) (value : Datum) (row : Row) : Bool :=
  Sql.equality (cell row column) value = some true

/-- The rows have the same key. -/
def agreeOn (keys : List String) (row other : Row) : Bool :=
  keys.all fun column ↦ hasIn column (cell other column) row

/-- No two rows have the same value in the column. -/
def UniqueIn (column : String) (rows : List Row) : Prop :=
  ∀ value, (rows.filter (hasIn column value)).length ≤ 1

/-- The rows with one more, which is written over the first row that has the same key if there is
one. -/
def upsertRow (keys replaced : List String) (row : Row) : List Row → List Row
  | [] => [row]
  | other :: rest =>
    if agreeOn keys other row then
      other.putAll (row.entries.filter fun entry ↦ replaced.contains entry.1) :: rest
    else other :: upsertRow keys replaced row rest

/-- The tables of a database by their names. -/
structure Database where
  rows : String → List Row

namespace Database

/-- The database with one table changed. -/
def change (db : Database) (table : String) (f : List Row → List Row) : Database :=
  ⟨fun name ↦ if name = table then f (db.rows name) else db.rows name⟩

def insert (db : Database) (table : String) (row : Row) : Database :=
  db.change table (· ++ [row])

def upsert (db : Database) (d : Dialect) (table : String) (row : Row) (keys : List String) :
    Database :=
  db.change table (upsertRow keys (d.replacedColumns row.names keys) row)

@[simp] theorem rows_change_self (db : Database) (table : String) (f : List Row → List Row) :
    (db.change table f).rows table = f (db.rows table) :=
  if_pos rfl

theorem rows_change_of_ne (db : Database) {table name : String} (f : List Row → List Row)
    (h : name ≠ table) : (db.change table f).rows name = db.rows name :=
  if_neg h

end Database

/-- The connection of a handle executes insertions on a database, of which the primary keys of the
tables are known. The state of the collaborators contains the database. -/
structure Handle.Reaches (h : Handle) (storage : Storage ω) (content : ω → Database)
    (primary : String → List String) : Prop where
  insert {state : ω} {table : String} {row : Row} :
    (∀ other ∈ (content state).rows table, agreeOn (primary table) other row = false) →
      ∃ cursor later,
        storage.execute h.connection h.dialect (.insert table row.names) row.values state =
          (.ok cursor, later) ∧ content later = (content state).insert table row
  upsert {state : ω} {table : String} {row : Row} :
    ∃ cursor later,
      storage.execute h.connection h.dialect (.upsert table row.names (primary table)) row.values
        state = (.ok cursor, later) ∧
        content later = (content state).upsert h.dialect table row (primary table)

/-! ### Rows after an upsert -/

theorem lookup_filter_names {α : Type} (p : String → Bool) (entries : List (String × α))
    (name : String) :
    (entries.filter fun entry ↦ p entry.1).lookup name =
      if p name then entries.lookup name else none := by
  induction entries with
  | nil => simp
  | cons entry rest ih =>
    obtain ⟨first, value⟩ := entry
    cases hfirst : p first with
    | true =>
      simp only [List.filter_cons, hfirst, if_true, lookup_entry_cons, ih]
      by_cases hname : name = first
      · simp [hname, hfirst]
      · simp [hname]
    | false =>
      simp only [List.filter_cons, hfirst, Bool.false_eq_true, if_false, lookup_entry_cons, ih]
      by_cases hname : name = first
      · simp [hname, hfirst]
      · simp [hname]

/-- Writing some columns over a row changes those columns and no others. -/
theorem cell_overwrite (other row : Row) (replaced : List String) {column : String}
    (hcolumn : column ∈ row.names) :
    cell (other.putAll (row.entries.filter fun entry ↦ replaced.contains entry.1)) column =
      if column ∈ replaced then cell row column else cell other column := by
  have hdistinct :
      ((row.entries.filter fun entry ↦ replaced.contains entry.1).map Prod.fst).Nodup :=
    (List.filter_sublist.map Prod.fst).nodup row.distinct
  unfold cell
  rw [OrderedMap.get?_putAll other hdistinct, lookup_filter_names]
  by_cases hreplaced : column ∈ replaced
  · obtain ⟨value, hvalue⟩ : ∃ value, row.entries.lookup column = some value := by
      cases h : row.entries.lookup column with
      | some value => exact ⟨value, rfl⟩
      | none =>
        obtain ⟨entry, hentry, rfl⟩ := List.mem_map.mp hcolumn
        have hne := List.lookup_eq_none_iff.mp h entry hentry
        simp at hne
    simp [hreplaced, OrderedMap.get?, hvalue]
  · simp [hreplaced]

theorem agreeOn_singleton (column : String) (other row : Row) :
    agreeOn [column] other row = hasIn column (cell row column) other := by
  simp [agreeOn]

theorem UniqueIn.tail {column : String} {row : Row} {rows : List Row}
    (h : UniqueIn column (row :: rows)) : UniqueIn column rows := fun value ↦
  Nat.le_trans (List.Sublist.length_le ((List.sublist_cons_self row rows).filter _)) (h value)

/-- After an upsert exactly one row has its key, and that row has its values in the columns that are
replaced. -/
theorem exists_filter_upsertRow {column : String} {replaced : List String} {row : Row}
    {rows : List Row} (hunique : UniqueIn column rows) (hcolumn : column ∈ row.names)
    (hself : hasIn column (cell row column) row = true) (hkept : column ∉ replaced) :
    ∃ stored, (upsertRow [column] replaced row rows).filter (hasIn column (cell row column)) =
        [stored] ∧ ∀ name ∈ replaced, name ∈ row.names → cell stored name = cell row name := by
  induction rows with
  | nil => exact ⟨row, by simp [upsertRow, hself], fun _ _ _ ↦ rfl⟩
  | cons other rest ih =>
    rw [upsertRow, agreeOn_singleton]
    by_cases hother : hasIn column (cell row column) other = true
    · have hrest : rest.filter (hasIn column (cell row column)) = [] := by
        have hlength := hunique (cell row column)
        rw [List.filter_cons_of_pos hother, List.length_cons] at hlength
        exact List.length_eq_zero_iff.mp (by omega)
      have hstored : hasIn column (cell row column)
          (other.putAll (row.entries.filter fun entry ↦ replaced.contains entry.1)) = true := by
        rw [hasIn, cell_overwrite other row replaced hcolumn, if_neg hkept]
        exact hother
      rw [if_pos hother, List.filter_cons_of_pos hstored, hrest]
      refine ⟨_, rfl, ?_⟩
      intro name hname hnamed
      rw [cell_overwrite other row replaced hnamed, if_pos hname]
    · rw [if_neg hother, List.filter_cons_of_neg hother]
      exact ih hunique.tail

/-- Where a column outside the key is written, the replaced columns are those outside the key. -/
theorem mem_replacedColumns (d : Dialect) {columns keys : List String} {column : String}
    (hcolumn : column ∈ columns) (hkeys : column ∉ keys) (name : String) :
    name ∈ d.replacedColumns columns keys ↔ name ∈ columns ∧ name ∉ keys := by
  have hmem : column ∈ columns.filter fun column ↦ !keys.contains column := by
    simp [hcolumn, hkeys]
  unfold Dialect.replacedColumns
  split
  · next h =>
    rw [h] at hmem
    cases hmem
  · simp

end StagedColumns
