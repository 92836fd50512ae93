import StagedColumns.Datum.Collection
import StagedColumns.Sql.Literal

/-!
# Conditions

A condition on a column compares it with one value or asks whether it is among several different
ones. Conditions are combined with `AND` or `OR`; whenever there are two or more, each stands in
parentheses of its own, so that what a condition says does not depend on where it stands.
-/

set_option autoImplicit false

namespace StagedColumns

/-- How conditions are combined. -/
inductive Connective
  | and
  | or
deriving DecidableEq

namespace Connective

/-- The word that stands between combined conditions. -/
def word : Connective → String
  | and => "AND"
  | or => "OR"

/-- The connective that a value names. -/
def ofDatum (d : Datum) : Except Failure Connective :=
  match d with
  | .text "AND" => .ok .and
  | .text "OR" => .ok .or
  | other => .error (.unknownChoice other.shown "ListMode")

end Connective

/-- What is asked of a column. -/
inductive ColumnTest
  | isNull
  | equals (value : Datum)
  /-- The column has one of the values, which are at least two and different. -/
  | oneOf (values : List Datum)

namespace ColumnTest

mutual

/-- What a value asks of a column: to be equal to it, or for a list, a tuple or a set to be among
its items. A single item asks what it would ask alone. -/
def ofDatum (column : String) : Datum → Except Failure ColumnTest
  | .null => .ok .isNull
  | .list items => ofItems column items
  | .tuple items => ofItems column items
  | .bag items => ofItems column items
  | value => .ok (.equals value)
termination_by structural d => d

/-- What the items of a collection ask of a column. -/
def ofItems (column : String) : List Datum → Except Failure ColumnTest
  | [] => .error (.emptyValues column)
  | item :: rest =>
    match Datum.distinct (item :: rest) with
    | .error type => .error (.changeable type)
    | .ok [_] => ofDatum column item
    | .ok values => .ok (.oneOf values)
termination_by structural items => items

end

/-- The condition that asks it of the column. -/
def render (d : Dialect) (column : String) : ColumnTest → Except Failure String
  | isNull => .ok (column ++ " IS NULL")
  | equals value => do return column ++ " = " ++ (← d.literal value)
  | oneOf values => do
    return column ++ " IN (" ++ ", ".intercalate (← d.literals values) ++ ")"

end ColumnTest

namespace Dialect

/-- The condition that a value puts on a column. -/
def testColumn (d : Dialect) (column : String) (value : Datum) : Except Failure String := do
  (← ColumnTest.ofDatum column value).render d column

/-- The conditions that the entries of a record put on the columns they name. -/
def testColumns (d : Dialect) : List (String × Datum) → Except Failure (List String)
  | [] => .ok []
  | (column, value) :: rest => do
    let condition ← d.testColumn column value
    return condition :: (← d.testColumns rest)

end Dialect

/-- Conditions combined to one. A single condition stays as it is. -/
def combine (connective : Connective) : List String → Except Failure String
  | [] => .error .noConditions
  | [condition] => .ok condition
  | conditions =>
    .ok ((" " ++ connective.word ++ " ").intercalate
      (conditions.map fun condition ↦ "(" ++ condition ++ ")"))

/-- The conditions that a value gives: those of the columns of a record, one ready-made condition,
or the ready-made ones of a collection. -/
def Dialect.conditions (d : Dialect) : Datum → Except Failure (List Datum)
  | .record entries => do return (← d.testColumns entries).map .text
  | .text condition => .ok [.text condition]
  | other => other.items

/-- The conditions that a value gives, combined to one. A single condition stays as it is, whatever
it is. -/
def Dialect.conditionOf (d : Dialect) (conditions : Datum) (connective : Connective) :
    Except Failure Datum := do
  match ← d.conditions conditions with
  | [condition] => return condition
  | several => return .text (← combine connective (several.map Datum.plain))

end StagedColumns
