import StagedColumns.Datum.Collection
import StagedColumns.Signature
import StagedColumns.Sql.Literal
import StagedColumns.Sql.Statement

/-!
# Snippets

Whoever writes statements of their own can ask a dialect for the snippets that it has, by their
names and with arguments of any type. The columns of a statement can be any collection of texts that
knows how many they are; the keys of a replacement can be anything that can be asked which columns
it holds. For texts in lists the snippets are the statements of the library.
-/

set_option autoImplicit false

namespace StagedColumns

/-- What a dialect can be asked for. -/
inductive Snippet
  | literal
  | parameterMark
  | parameterMarks
  | insertion
  | replacement
deriving DecidableEq

namespace Snippet

/-- The name by which a snippet is asked for. -/
def name : Snippet → String
  | literal => "quote"
  | parameterMark => "placeholder"
  | parameterMarks => "placeholders"
  | insertion => "insert"
  | replacement => "upsert"

/-- The names of the arguments that a snippet needs. -/
def parameters : Snippet → List String
  | literal => ["value"]
  | parameterMark => ["index"]
  | parameterMarks => ["count"]
  | insertion => ["table", "columns"]
  | replacement => ["table", "columns", "key_columns"]

/-- The snippet of a name. -/
def ofName? (name : String) : Option Snippet :=
  [literal, parameterMark, parameterMarks, insertion, replacement].find? (·.name = name)

end Snippet

namespace Dialect

/-- The name of a dialect as refusals give it. -/
def title : Dialect → String
  | sqlite => "SQLiteDialect"
  | postgresql => "PostgreSQLDialect"
  | mysql => "MySQLDialect"

/-- The signature of a snippet. -/
def signature (d : Dialect) (snippet : Snippet) : Signature :=
  .ofThing (d.title ++ "." ++ snippet.name) (snippet.parameters.map Parameter.required) []

/-- As many marks of parameters as a value counts. -/
def marksOf (d : Dialect) : Datum → Except Failure String
  | .int n => .ok (d.parameterMarks n)
  | .bool b => .ok (d.parameterMarks (if b then 1 else 0))
  | other => .error (.notNumber other.typeName)

/-- The text of an insertion whose table and columns are given as values. -/
def insertionOf (d : Dialect) (table columns : Datum) : Except Failure String := do
  let names ← columns.texts
  let _ ← columns.count
  return d.insertion table.plain names

/-- The items that the keys do not hold, and what is left of the keys after they were asked. -/
def outside (keys : Datum) : List Datum → Except Failure (List Datum × Datum)
  | [] => .ok ([], keys)
  | item :: rest => do
    let (held, keys) ← keys.holds item
    let (others, keys) ← outside keys rest
    return (if held then others else item :: others, keys)

/-- The text of a replacement whose table, columns and keys are given as values. -/
def replacementOf (d : Dialect) (table columns keys : Datum) : Except Failure String := do
  let (replaced, keys) ← outside keys (← columns.items)
  let columns := columns.exhausted
  match d with
  | mysql =>
    let replaced ← if replaced.isEmpty then keys.firstAlone else pure replaced
    return (← d.insertionOf table columns) ++ d.onConflict (replaced.map Datum.plain) []
  | sqlite | postgresql =>
    let insertion ← d.insertionOf table columns
    return insertion ++ d.onConflict (replaced.map Datum.plain) (← keys.texts)

/-- The snippet of a name for the arguments. -/
def ask (d : Dialect) (name : String) (given : List Datum) : Except Failure String :=
  match Snippet.ofName? name with
  | none => .error (.noAttribute d.title name)
  | some snippet => do
    let values ← (d.signature snippet).valuesForThing given []
    let value (name : String) : Datum := (values.get? name).getD .null
    match snippet with
    | .literal => d.literal (value "value")
    | .parameterMark => return d.parameterMark
    | .parameterMarks => d.marksOf (value "count")
    | .insertion => d.insertionOf (value "table") (value "columns")
    | .replacement => d.replacementOf (value "table") (value "columns") (value "key_columns")

end Dialect

end StagedColumns
