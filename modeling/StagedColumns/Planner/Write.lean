import StagedColumns.PendingWrite
import StagedColumns.Planner.Basic

/-!
# Writing a field

A write gives the values of the main row's columns for a user. The actor id goes into the main row
as well, unless the field has a temp table; then it goes into a pending write of the temp table. The
two ways to write are told apart by the field, and the wrong one is refused before anything is asked
of a collaborator.
-/

set_option autoImplicit false

namespace StagedColumns.Planner

variable {ω : Type}

/-- The values of the columns of the old representation, if that is written. -/
def oldValues (stage : Stage) (key textColumn : String) (user : User) : Row :=
  if stage.writesOld then
    OrderedMap.ofList [(key, .int user.id), (textColumn, .text user.name)]
  else .empty

/-- The actor id of a user in the handle's domain. The user becomes an actor if need be. -/
def acquireActor (storage : Storage ω) (handle : Handle) (key : String) (user : User) :
    Operation Signal ω Int := do
  Storage.askRoster handle.domain
  let actor ← storage.acquireActor handle.domain user
  Operation.report "actor_id_acquired" .debug
    [("field", key), ("domain", handle.domain), ("user", user.name), ("actor_id", .int actor)]
  return actor

/-- What a write of the main row alone is called. -/
def directWrite : String :=
  "build_insert_values"

/-- What a write of the main row and its temp table is called. -/
def linkedWrite : String :=
  "build_insert_values_with_temp_table"

/-- The values to be written into the main row for a user, for a key without a temp table. -/
def write (p : Planner) (storage : Storage ω) (handle : Handle) (key : String) (user : User) :
    Operation Signal ω Row := do
  let field ← p.table.pass key
  if field.tempTable.isSome then Operation.fail (.wrongWrite key linkedWrite)
  else
    let names := field.columnNames key
    let values := oldValues p.stage key names.text user
    if p.stage.writesNew then
      let actor ← acquireActor storage handle key user
      return values.put names.actor (.int actor)
    else return values

/-- Lets a linked write pass for a key with a temp table. A key that had one in an earlier version
is let through too, with a warning. -/
def passLinked (p : Planner) (key : String) (field : UserField) : Operation Signal ω Unit :=
  match field.formerTempTableIn, field.tempTable with
  | some version, _ =>
    p.table.warn (linkedWrite ++ " for " ++ key) version (p.table.componentOf field) key
  | none, some _ => pure ()
  | none, none => Operation.fail (.wrongWrite key directWrite)

/-- The values to be written into the main row for a user, and the write into the temp table that
is to follow. -/
def writeLinked (p : Planner) (storage : Storage ω) (handle : Handle) (key : String) (user : User) :
    Operation Signal ω (Row × PendingWrite) := do
  let field ← p.table.pass key
  p.passLinked key field
  let names := field.columnNames key
  let values := oldValues p.stage key names.text user
  if p.stage.writesNew then
    let actor ← acquireActor storage handle key user
    match field.tempTable with
    | some table => return (values, ⟨key, .store table actor handle⟩)
    | none => return (values.put names.actor (.int actor), .idle key)
  else
    match field.tempTable with
    | some table => return (values, ⟨key, .check table none⟩)
    | none => return (values, .idle key)

/-- What comes of a write for a value that is no user. The field is looked at as for a user; the
value is refused where its id would be written or, failing that, where a roster needs its name. -/
def refuseWrite {α : Type} (p : Planner) (handle : Handle) (key : String) (linked : Bool)
    (value : Datum) : Operation Signal ω α := do
  let field ← p.table.pass key
  if linked then p.passLinked key field
  else if field.tempTable.isSome then Operation.fail (.wrongWrite key linkedWrite)
  if p.stage.writesOld then Operation.fail (.noAttribute value.typeName "id")
  else
    Storage.askRoster handle.domain
    Operation.fail (.noAttribute value.typeName "name")

end StagedColumns.Planner
