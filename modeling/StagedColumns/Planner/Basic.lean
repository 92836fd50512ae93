import StagedColumns.Field.Table
import StagedColumns.Stage.Coercion

/-!
# Planners

A planner knows the stage of the migration and the user fields, and tells callers how to work with
those fields: how to read one, which values to write for a user, and how to search for the rows of
users. It executes nothing itself; the actor ids it needs come from the roster of the handle's
domain.
-/

set_option autoImplicit false

namespace StagedColumns

/-- A stage of the migration and the user fields. -/
structure Planner where
  stage : Stage
  table : FieldTable

namespace Planner

variable {ω : Type}

/-- The planner of a configuration: the name it goes by, its stage, its fields, whether it allows
other keys, and the component that versions count for. The stage is looked at first. -/
def configure (name : String) (stage : Datum) (fields : RawRecord) (othersAllowed : Bool)
    (component : String) : Operation Signal ω Planner := do
  let stage ← Operation.ofExcept (Stage.ofDatum stage)
  let table ← Operation.ofExcept (FieldTable.ofRecord fields othersAllowed component name)
  Operation.report "engine_configured" .debug
    [("owner", name), ("stage", stage.label), ("fields", .int table.fields.size),
      ("allow_unknown", .bool othersAllowed)]
  return ⟨stage, table⟩

/-- The condition that a column refers to nobody registered. -/
def anonymousCondition (p : Planner) (column : String) : String :=
  if p.stage.readsNew then column ++ " IS NULL" else column ++ " = 0"

/-- The condition that a column refers to somebody registered. -/
def registeredCondition (p : Planner) (column : String) : String :=
  if p.stage.readsNew then column ++ " IS NOT NULL" else column ++ " != 0"

end Planner

end StagedColumns
