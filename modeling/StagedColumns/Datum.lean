import StagedColumns.Field.Basic
import StagedColumns.Floating
import StagedColumns.Stage

/-!
# Data

The values that pass through the library without being its own: column values, parameters of
statements, raw configuration, details of log events. What a value is shows in three places only:
in SQL literals, in the messages that name or show a value, and where values are compared to leave
out repetitions. Users, stages and user fields with their temp tables are values too, since callers
may hand them in wherever a value is expected.
-/

set_option autoImplicit false

namespace StagedColumns

/-- A value of any type. -/
inductive Datum
  | null
  | bool (b : Bool)
  | int (n : Int)
  | float (x : Floating)
  | text (s : String)
  | bytes (data : List UInt8)
  | list (items : List Datum)
  | tuple (items : List Datum)
  | bag (items : List Datum)
  /-- Items that can be gone through once. -/
  | stream (items : List Datum)
  | record (entries : List (String × Datum))
  /-- A value about which nothing is known. -/
  | foreign
  | user (id : Nat) (name : String) (domain : Datum)
  | stage (s : Stage)
  | field (f : UserField)
  | tempTable (t : TempTable)

instance : Inhabited Datum :=
  ⟨.null⟩

instance : Coe String Datum :=
  ⟨.text⟩

namespace Datum

/-- The name of a value's type, as messages give it. -/
def typeName : Datum → String
  | .null => "NoneType"
  | .bool _ => "bool"
  | .int _ => "int"
  | .float _ => "float"
  | .text _ => "str"
  | .bytes _ => "bytes"
  | .list _ => "list"
  | .tuple _ => "tuple"
  | .bag _ => "set"
  | .stream _ => "list_iterator"
  | .record _ => "dict"
  | .foreign => "Opaque"
  | .user .. => "UserIdentity"
  | .stage _ => "MigrationStage"
  | .field _ => "FieldSpec"
  | .tempTable _ => "TempTableSpec"

/-- The value counts as true where a condition is asked for: everything does but the absent value,
zeros, and what is empty. -/
def truthy : Datum → Bool
  | .null => false
  | .bool b => b
  | .int n => n != 0
  | .float x => x.integer? != some 0
  | .text s => s != ""
  | .bytes data => !data.isEmpty
  | .list items | .tuple items | .bag items => !items.isEmpty
  | .record entries => !entries.isEmpty
  | _ => true

/-- The text, when the value is one. -/
def text? : Datum → Option String
  | .text s => some s
  | _ => none

end Datum

/-- A row: the values of its columns in order. -/
abbrev Row := OrderedMap Datum

end StagedColumns
