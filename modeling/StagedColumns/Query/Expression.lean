import StagedColumns.OrderedMap

/-!
# Expressions and joins

The parts of the fragments that callers splice into their queries. A fragment adds tables under
aliases, and for each alias the join that ties it to the tables before it. A table without a join
is added to the list of tables by a comma.
-/

set_option autoImplicit false

namespace StagedColumns

/-- An expression over the columns of a query. -/
inductive Expression
  | null
  /-- A column of the main table. -/
  | column (name : String)
  /-- A column of the table that is added under an alias. -/
  | qualified (shortName column : String)
  /-- An expression that a caller gives as text. -/
  | text (sql : String)
deriving DecidableEq

/-- The text of an expression. -/
def Expression.render : Expression → String
  | .null => "NULL"
  | .column name => name
  | .qualified shortName name => shortName ++ "." ++ name
  | .text sql => sql

/-- What ties the rows of a joined table to the rows before it. -/
inductive Tie
  | equal (left right : Expression)
  /-- A condition that a caller gives as text. -/
  | text (sql : String)
deriving DecidableEq

/-- The text of a tie. -/
def Tie.render : Tie → String
  | .equal left right => left.render ++ " = " ++ right.render
  | .text sql => sql

/-- A join: its kind, such as `JOIN` or `LEFT JOIN`, and its tie. -/
structure Join where
  kind : String
  tie : Tie
deriving DecidableEq

/-- The inner join of the rows where two expressions are equal. -/
def Join.inner (left right : Expression) : Join :=
  ⟨"JOIN", .equal left right⟩

/-- The tables that a fragment adds, by alias, with their joins. -/
structure Tables where
  tables : OrderedMap String
  joins : OrderedMap Join
deriving DecidableEq

namespace Tables

/-- No tables. -/
def empty : Tables :=
  ⟨.empty, .empty⟩

/-- The tables with one more, joined. -/
def add (t : Tables) (shortName table : String) (join : Join) : Tables :=
  ⟨t.tables.put shortName table, t.joins.put shortName join⟩

/-- The tables of both, the second ones written over the first. -/
def merge (t later : Tables) : Tables :=
  ⟨t.tables.merge later.tables, t.joins.merge later.joins⟩

/-- The text that adds one table. -/
def renderTable (t : Tables) (shortName table : String) : String :=
  match t.joins.get? shortName with
  | some join => join.kind ++ " " ++ table ++ " " ++ shortName ++ " ON " ++ join.tie.render
  | none => ", " ++ table ++ " " ++ shortName

/-- The text that adds the tables. -/
def render (t : Tables) : String :=
  " ".intercalate (t.tables.entries.map fun entry ↦ t.renderTable entry.1 entry.2)

end Tables

end StagedColumns
