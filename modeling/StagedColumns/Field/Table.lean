import StagedColumns.Field.Reader
import StagedColumns.Signal

/-!
# Field tables

A field table holds the user fields of a schema, by key. A key that is not in the table is either
taken for a field with the default names or refused, as the table says. Before a field is used, its
key passes the gate: a field that was removed is refused, and a deprecated one is reported and let
through.
-/

set_option autoImplicit false

namespace StagedColumns

/-- The user fields, and how they are applied. -/
structure FieldTable where
  fields : OrderedMap UserField
  /-- Keys that are not in the table are allowed. -/
  othersAllowed : Bool
  /-- The component that versions count for where a field names none. -/
  component : String
  /-- The name under which messages speak of the table's owner. -/
  owner : String

/-- What a table knows about a key. -/
inductive Lookup
  | known (field : UserField)
  /-- The key is not in the table and need not be. -/
  | assumed
  | rejected (failure : Failure)

/-- The names of the columns of a field besides its key, which names the column of the user id. -/
structure ColumnNames where
  text : String
  actor : String
deriving DecidableEq

namespace UserField

/-- A name that is given and not empty, or else the default. -/
def nameOr (default : String) : Option String → String
  | none | some "" => default
  | some name => name

/-- The default name of the column that holds a user's name. -/
def defaultTextColumn (key : String) : String :=
  key ++ "_text"

/-- The default name of the column that holds the actor id: `_actor` after the key, or in place of
`_user` at its end. -/
def defaultActorColumn (key : String) : String :=
  (Text.before? "_user" key).getD key ++ "_actor"

/-- The names of the columns of a field. -/
def columnNames (field : UserField) (key : String) : ColumnNames :=
  ⟨nameOr (defaultTextColumn key) field.textColumn,
    nameOr (defaultActorColumn key) field.actorColumn⟩

end UserField

namespace FieldTable

variable {ω : Type}

/-- The fields that raw configuration gives, up to the first one that is refused. -/
def readFields : RawRecord → Except Failure (List (String × UserField))
  | [] => .ok []
  | (key, raw) :: rest => do
    let field ← UserField.ofDatum key raw
    return (key, field) :: (← readFields rest)

/-- The table of raw configuration. -/
def ofRecord (r : RawRecord) (othersAllowed : Bool) (component owner : String) :
    Except Failure FieldTable := do
  return ⟨OrderedMap.ofList (← readFields r), othersAllowed, component, owner⟩

/-- The keys in the table. -/
def keys (t : FieldTable) : List String :=
  t.fields.names

/-- What the table knows about the key. -/
def lookup (t : FieldTable) (key : String) : Lookup :=
  match t.fields.get? key with
  | some field => .known field
  | none => if t.othersAllowed then .assumed else .rejected (.unknownKey key t.owner)

/-- The field of the key, the plain one if the key need not be in the table. -/
def resolve (t : FieldTable) (key : String) : Except Failure UserField :=
  match t.lookup key with
  | .known field => .ok field
  | .assumed => .ok .plain
  | .rejected failure => .error failure

/-- The component that the versions of the field count for. -/
def componentOf (t : FieldTable) (field : UserField) : String :=
  UserField.nameOr t.component field.component

/-- The names of the columns of the key. -/
def columnNames (t : FieldTable) (key : String) : Except Failure ColumnNames :=
  return (← t.resolve key).columnNames key

/-- The temp table of the key. -/
def tempTable (t : FieldTable) (key : String) : Except Failure (Option TempTable) :=
  return (← t.resolve key).tempTable

/-- Reports that something deprecated is in use. -/
def warn (t : FieldTable) (what version component key : String) : Operation Signal ω Unit := do
  Operation.report "field_deprecated" .warning
    [("field", key), ("owner", t.owner), ("version", version), ("component", component)]
  Operation.sign <|
    .deprecation ("Use of " ++ what ++ " was deprecated in " ++ component ++ " " ++ version ++ ".")

/-- The field of a key that passes the gate. -/
def pass (t : FieldTable) (key : String) : Operation Signal ω UserField := do
  let field ← Operation.ofExcept (t.resolve key)
  match field.removedIn with
  | some version => Operation.fail (.fieldRemoved key version (t.componentOf field) t.owner)
  | none =>
    match field.deprecatedIn with
    | some version => t.warn (t.owner ++ " for '" ++ key ++ "'") version (t.componentOf field) key
    | none => pure ()
    return field

end FieldTable

end StagedColumns
