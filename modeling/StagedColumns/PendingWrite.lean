import StagedColumns.Datum.Collection
import StagedColumns.Storage

/-!
# Pending writes

Where a temp table links rows to actors, a reference can only be written once the main row has its
primary key. Until then the write is pending. A pending write knows all that it needs by the time it
is made: one that is to store an actor has the temp table, the actor id and the handle to do it
with. What is still missing when it is finished is the primary key, and the values of the main row
that the temp table repeats.
-/

set_option autoImplicit false

namespace StagedColumns

/-- What finishing a pending write is to do, as callers name it. -/
inductive WriteAction
  | nothing
  /-- The values to be repeated are checked, and nothing is written. -/
  | check
  /-- The actor id and the values to be repeated are written into the temp table. -/
  | store
deriving DecidableEq

namespace WriteAction

/-- The name of an action. -/
def name : WriteAction → String
  | nothing => "none"
  | check => "validate"
  | store => "upsert"

/-- The action that a value names. -/
def ofDatum (d : Datum) : Except Failure WriteAction :=
  match d.text?.bind fun name ↦ [nothing, check, store].find? (·.name = name) with
  | some action => .ok action
  | none => .error (.unknownChoice d.shown "DeferredAction")

end WriteAction

/-- What finishing a pending write is to do, with what is needed for it. -/
inductive Duty
  | nothing (table : Option TempTable) (actor : Option Int)
  | check (table : TempTable) (actor : Option Int)
  | store (table : TempTable) (actor : Int) (handle : Handle)
deriving DecidableEq

/-- A write that waits for the primary key of the main row. -/
structure PendingWrite where
  key : String
  duty : Duty
deriving DecidableEq

/-- What came of finishing a pending write. -/
structure Completion where
  /-- A row was written. -/
  performed : Bool
  table : Option String
  row : Row

namespace PendingWrite

/-- The write that waits for nothing. -/
def idle (key : String) : PendingWrite :=
  ⟨key, .nothing none none⟩

/-- A pending write of an action, if there is all that the action needs. -/
def make (key : String) (action : WriteAction) (table : Option TempTable) (actor : Option Int)
    (handle : Option Handle) : Except Failure PendingWrite :=
  match action, table, actor, handle with
  | .nothing, _, _, _ => .ok ⟨key, .nothing table actor⟩
  | .check, some table, _, _ => .ok ⟨key, .check table actor⟩
  | .store, some table, some actor, some handle => .ok ⟨key, .store table actor handle⟩
  | action, none, _, _ => .error (.needsTempTable action.name)
  | .store, some _, _, _ => .error .needsActor

/-- What finishing the write is to do. -/
def action (w : PendingWrite) : WriteAction :=
  match w.duty with
  | .nothing .. => .nothing
  | .check .. => .check
  | .store .. => .store

/-- The temp table of the write. -/
def table? (w : PendingWrite) : Option TempTable :=
  match w.duty with
  | .nothing table _ => table
  | .check table _ | .store table _ _ => some table

/-- The actor id of the write. -/
def actor? (w : PendingWrite) : Option Int :=
  match w.duty with
  | .nothing _ actor | .check _ actor => actor
  | .store _ actor _ => some actor

/-- The columns of the temp table whose values are known already. -/
def knownColumns (w : PendingWrite) : Row :=
  match w.duty with
  | .store table actor _ => OrderedMap.empty.put table.actorColumn (.int actor)
  | _ => .empty

/-- The columns of the main table whose values have to be given. -/
def requiredColumns (w : PendingWrite) : List String :=
  match w.table? with
  | some table => table.copies.values
  | none => []

end PendingWrite

namespace Datum

/-- The value under a name in something that should be a record: `none` if the name is not there.
Many things that are no records can be asked whether they hold a name, but they have no value under
it. -/
def valueUnder (name : String) (d : Datum) : Except Failure (Option Datum) :=
  match d with
  | .record entries => .ok (entries.lookup name)
  | other => do
    let (held, _) ← other.holds (.text name)
    if held then .error (refusal other) else return none
where
  /-- Why a value has no value under a name that it holds. -/
  refusal (d : Datum) : Failure :=
    match d with
    | .text _ | .list _ | .tuple _ => .noValueUnderName d.typeName
    | other => .noParts other.typeName

end Datum

namespace PendingWrite

variable {ω : Type}

/-- The values to be repeated, by the columns of the temp table that repeat them. The first column
without a value is reported. -/
def repeatedColumns (key : String) (extras : Datum) :
    List (String × String) → Except Failure (List (String × Datum))
  | [] => .ok []
  | (column, source) :: rest => do
    match ← extras.valueUnder source with
    | none => .error (.missingValue key source)
    | some value => return (column, value) :: (← repeatedColumns key extras rest)

/-- The row of the temp table. -/
def storedRow (table : TempTable) (mainKey : Datum) (actor : Int)
    (repeated : List (String × Datum)) : Row :=
  (OrderedMap.ofList [(table.keyColumn, mainKey), (table.actorColumn, .int actor)]).putAll repeated

/-- Finishes the write with the primary key of the main row and the values of its columns. -/
def finish (w : PendingWrite) (storage : Storage ω) (mainKey extras : Datum) :
    Operation Signal ω Completion :=
  let extras := if extras.truthy then extras else .record []
  match w.duty with
  | .nothing .. => pure ⟨false, none, .empty⟩
  | .check table _ => do
    let _ ← Operation.ofExcept (repeatedColumns w.key extras table.copies.entries)
    return ⟨false, some table.name, .empty⟩
  | .store table actor handle => do
    let repeated ← Operation.ofExcept (repeatedColumns w.key extras table.copies.entries)
    match mainKey with
    | .null => Operation.fail (.needsPrimaryKey w.key)
    | mainKey =>
      let row := storedRow table mainKey actor repeated
      handle.upsert storage table.name row [table.keyColumn]
      Operation.report "temp_table_upserted" .debug
        [("field", w.key), ("table", table.name), ("pk", mainKey), ("actor_id", .int actor)]
      return ⟨true, some table.name, row⟩

end PendingWrite

end StagedColumns
