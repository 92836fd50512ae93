import StagedColumns.Memo
import StagedColumns.Planner.Basic
import StagedColumns.Query.Fragment

/-!
# Reading a field

The old representation is read from the main table alone. For the new one the actor table is joined
under an alias made from the key, by the actor id that the main row holds or, where there is a temp
table, by the one that the temp table holds for the main row. The reading of a key depends on
nothing that changes, so it is made once and kept.
-/

set_option autoImplicit false

namespace StagedColumns.Planner

variable {ω : Type}

/-- The table of actors. -/
def actorTable : String :=
  "actor"

/-- The alias of the temp table of a key. -/
def tempAlias (key : String) : String :=
  "temp_" ++ key

/-- The alias of the actor table of a key. -/
def actorAlias (key : String) : String :=
  "actor_" ++ key

/-- Where the actor id of a key is found: the tables to be added, and the expression for it. -/
def actorSource (key actorColumn : String) : Option TempTable → Tables × Expression
  | none => (.empty, .column actorColumn)
  | some table =>
    let shortName := tempAlias key
    (Tables.empty.add shortName table.name
      (.inner (.qualified shortName table.keyColumn) (.column table.mainKey)),
      .qualified shortName table.actorColumn)

/-- The reading of a key from the old representation, where there are no actor ids. -/
def oldReading (key : String) (names : ColumnNames) : Reading :=
  ⟨.empty, OrderedMap.ofList
    [(key, .column key), (names.text, .column names.text), (names.actor, .null)]⟩

/-- The reading of a key from the new representation. -/
def newReading (key : String) (names : ColumnNames) (tempTable : Option TempTable) : Reading :=
  let (source, actorId) := actorSource key names.actor tempTable
  let shortName := actorAlias key
  ⟨source.add shortName actorTable (.inner (.qualified shortName "actor_id") actorId),
    OrderedMap.ofList
      [(key, .qualified shortName "actor_user"), (names.text, .qualified shortName "actor_name"),
        (names.actor, actorId)]⟩

/-- The reading of a key at a stage. -/
def readingAt (stage : Stage) (key : String) (field : UserField) : Reading :=
  let names := field.columnNames key
  match stage.reading with
  | .old => oldReading key names
  | .new => newReading key names field.tempTable

/-- Makes the reading of a key. -/
def makeReading (p : Planner) (key : String) : Operation Signal ω Reading := do
  let reading := readingAt p.stage key (← Operation.ofExcept (p.table.resolve key))
  Operation.report "join_built" .debug
    [("field", key), ("stage", p.stage.label),
      ("tables", .list (reading.source.tables.names.map Datum.text))]
  return reading

/-- How the field of a key is read. Whatever the stage, the outputs bear the names of the columns of
both representations. -/
def read (p : Planner) (key : String) : Operation Signal (Memo Reading) Reading := do
  let _ ← p.table.pass key
  Memo.getOrMake key (p.makeReading key)

end StagedColumns.Planner
