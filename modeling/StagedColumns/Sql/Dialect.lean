import StagedColumns.Failure
import StagedColumns.Text.Lowercase

/-!
# SQL dialects

The fragments that the library writes differ between databases in three things only: how a value is
written as a literal, how a parameter is marked, and how a row replaces another one. A dialect is
chosen by a name, whose letter case does not matter; further names can be given to the dialects.
-/

set_option autoImplicit false

namespace StagedColumns

/-- An SQL dialect. -/
inductive Dialect
  | sqlite
  | postgresql
  | mysql
deriving DecidableEq

namespace Dialect

/-- The name of a dialect. -/
def name : Dialect → String
  | sqlite => "sqlite"
  | postgresql => "postgresql"
  | mysql => "mysql"

/-- How a parameter is marked. -/
def parameterMark : Dialect → String
  | sqlite => "?"
  | postgresql | mysql => "%s"

/-- The marks of a number of parameters; of a negative number, none. -/
def parameterMarks (d : Dialect) (count : Int) : String :=
  ", ".intercalate (List.replicate count.toNat d.parameterMark)

end Dialect

/-- Dialects by their names, which are in lower case. -/
abbrev DialectNames := OrderedMap Dialect

namespace DialectNames

/-- A second name of a dialect, which is not listed among the supported ones. -/
def secondName : String :=
  "postgres"

/-- The names that every dialect has from the start. -/
def standard : DialectNames :=
  OrderedMap.ofList
    [("sqlite", .sqlite), ("postgresql", .postgresql), (secondName, .postgresql), ("mysql", .mysql)]

/-- The names that are listed as supported, in alphabetical order. -/
def supported (names : DialectNames) : List String :=
  (names.names.filter (· ≠ secondName)).mergeSort fun a b ↦ a ≤ b

/-- The dialect of a name. -/
def find (names : DialectNames) (name : String) : Except Failure Dialect :=
  match names.get? (Text.lowercase name) with
  | some dialect => .ok dialect
  | none => .error (.unknownDialect name names.supported)

/-- The dialect that a value names. -/
def choose (names : DialectNames) : Datum → Except Failure Dialect
  | .text name => names.find name
  | .bytes data => .error (.unknownDialect (Datum.bytes data).shown names.supported)
  | other => .error (.noAttribute other.typeName "lower")

/-- The names with one more for a dialect. -/
def add (names : DialectNames) (name : Datum) (dialect : Dialect) : Except Failure DialectNames :=
  match name with
  | .text name => .ok (names.put (Text.lowercase name) dialect)
  | other => .error (.noAttribute other.typeName "lower")

end DialectNames

end StagedColumns
