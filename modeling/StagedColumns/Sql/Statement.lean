import StagedColumns.Sql.Dialect

/-!
# Statements

The statements that the library executes: those that it is given as text, the insertion of one row,
and the insertion of one row that replaces a row with the same key. Where the row exists, its
columns outside the key get the new values. If there are no such columns nothing is changed; MySQL
cannot say so, and there the first key column is given its own value.
-/

set_option autoImplicit false

namespace StagedColumns

/-- A statement with one parameter for each of its columns. -/
inductive Statement
  | text (sql : String)
  | insert (table : String) (columns : List String)
  | upsert (table : String) (columns keys : List String)
deriving DecidableEq

namespace Dialect

/-- The columns that get new values where the row exists. -/
def replacedColumns (d : Dialect) (columns keys : List String) : List String :=
  match columns.filter (fun column ↦ !keys.contains column), d with
  | [], .mysql => keys.take 1
  | replaced, _ => replaced

/-- The value that a column has in the row to be inserted. -/
def insertedValue (d : Dialect) (column : String) : String :=
  match d with
  | sqlite => "excluded." ++ column
  | postgresql => "EXCLUDED." ++ column
  | mysql => "VALUES(" ++ column ++ ")"

/-- The assignments of new values to columns. -/
def assignments (d : Dialect) (columns : List String) : String :=
  ", ".intercalate (columns.map fun column ↦ column ++ " = " ++ d.insertedValue column)

/-- What is to be done where the row exists: some columns get new values. -/
def onConflict (d : Dialect) (replaced keys : List String) : String :=
  match d with
  | mysql => " ON DUPLICATE KEY UPDATE " ++ d.assignments replaced
  | sqlite | postgresql =>
    " ON CONFLICT (" ++ ", ".intercalate keys ++ ") DO " ++
      (if replaced = [] then "NOTHING" else "UPDATE SET " ++ d.assignments replaced)

/-- The text of an insertion. -/
def insertion (d : Dialect) (table : String) (columns : List String) : String :=
  "INSERT INTO " ++ table ++ " (" ++ ", ".intercalate columns ++ ") VALUES (" ++
    d.parameterMarks columns.length ++ ")"

/-- The text of a statement. -/
def render (d : Dialect) : Statement → String
  | .text sql => sql
  | .insert table columns => d.insertion table columns
  | .upsert table columns keys =>
    d.insertion table columns ++ d.onConflict (d.replacedColumns columns keys) keys

end Dialect

end StagedColumns
