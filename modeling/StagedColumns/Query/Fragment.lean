import StagedColumns.Query.Expression

/-!
# Fragments of queries

What a caller splices into a query to read a field and to search by it. A reading adds tables and
gives an expression for each output of the query. Readings can be merged, so that one query reads
several fields. A search adds tables and gives the condition that its alternatives combine to; with
no alternative, it finds nothing.
-/

set_option autoImplicit false

namespace StagedColumns

/-- How fields are read. -/
structure Reading where
  source : Tables
  /-- The expressions, by the names of the outputs. -/
  outputs : OrderedMap Expression
deriving DecidableEq

namespace Reading

/-- Nothing is read. -/
def empty : Reading :=
  ⟨.empty, .empty⟩

/-- Both readings, the second one written over the first. -/
def merge (r later : Reading) : Reading :=
  ⟨r.source.merge later.source, r.outputs.merge later.outputs⟩

/-- All readings, merged from left to right. -/
def mergeAll (readings : List Reading) : Reading :=
  readings.foldl merge empty

/-- One output: an expression that is no more than its name stands alone. -/
def renderOutput (name : String) (expression : Expression) : String :=
  if expression.render = name then name else expression.render ++ " AS " ++ name

/-- The list of outputs. -/
def renderOutputs (r : Reading) : String :=
  ", ".intercalate (r.outputs.entries.map fun entry ↦ renderOutput entry.1 entry.2)

end Reading

/-- The condition that no row meets. -/
def impossible : String :=
  "1=0"

/-- How rows are searched for. -/
structure Search where
  source : Tables
  condition : String
  /-- The alternatives that the condition combines, by what they look at. -/
  alternatives : OrderedMap String
deriving DecidableEq

/-- The search has no alternative. -/
def Search.findsNothing (s : Search) : Bool :=
  s.alternatives.isEmpty

end StagedColumns
