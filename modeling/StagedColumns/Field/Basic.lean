import StagedColumns.OrderedMap

/-!
# User fields

A field is a place in a table where a row refers to a user. It goes by a key, which is also the name
of the column of the user's id. What is known about a field are the names of its other columns where
they differ from the default, the temp table that links its rows to actors if there is one, and the
versions in which it was deprecated, removed, or last used a temp table.
-/

set_option autoImplicit false

namespace StagedColumns

/-- A table that maps the primary key of a main table to an actor id. -/
structure TempTable where
  name : String
  /-- Its column that holds the main table's primary key. -/
  keyColumn : String
  /-- Its column that holds the actor id. -/
  actorColumn : String
  /-- The main table's primary key column. -/
  mainKey : String
  /-- Its columns that repeat a column of the main table: its name, then the main table's. -/
  copies : OrderedMap String
deriving DecidableEq

/-- What is known about a user field. Where nothing is, the field has the default names, no temp
table and no versions. -/
structure UserField where
  /-- The column that holds the user's name. -/
  textColumn : Option String
  /-- The column that holds the actor id. -/
  actorColumn : Option String
  tempTable : Option TempTable
  deprecatedIn : Option String
  removedIn : Option String
  /-- The version in which the field last used a temp table. -/
  formerTempTableIn : Option String
  /-- The component that the versions count for. -/
  component : Option String
deriving DecidableEq

/-- The field about which nothing is known. -/
def UserField.plain : UserField :=
  ⟨none, none, none, none, none, none, none⟩

end StagedColumns
