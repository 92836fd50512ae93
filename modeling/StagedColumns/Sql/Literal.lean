import StagedColumns.Sql.Dialect

/-!
# Literals

A text is written between single quotes, with every single quote in it doubled. MySQL reads a
backslash inside a literal as the start of an escape, so there backslashes are doubled too. Numbers
stand as they are, and truth values are numbers in SQLite and words elsewhere.

An integer is written however many digits it has. The limit that writing an integer in decimals
otherwise has (`Datum.digitLimit`) is left out, since no id of a row is that long.
-/

set_option autoImplicit false

namespace StagedColumns

namespace Dialect

/-- One character inside a text literal. -/
def literalChar (d : Dialect) (c : Char) : List Char :=
  if c = '\'' then ['\'', '\'']
  else if c = '\\' ∧ d = .mysql then ['\\', '\\']
  else [c]

/-- The characters of a text literal. -/
def literalChars (d : Dialect) (cs : List Char) : List Char :=
  '\'' :: cs.flatMap d.literalChar ++ ['\'']

/-- The literal of a truth value. -/
def boolLiteral : Dialect → Bool → String
  | sqlite, true => "1"
  | sqlite, false => "0"
  | _, true => "TRUE"
  | _, false => "FALSE"

/-- The literal of a value, for the values that have one. -/
def literal (d : Dialect) : Datum → Except Failure String
  | .null => .ok "NULL"
  | .bool b => .ok (d.boolLiteral b)
  | .int n => .ok (toString n)
  | .float x => .ok x.text
  | .text s => .ok (String.ofList (d.literalChars s.toList))
  | other => .error (.noLiteral other.typeName)

/-- The literals of values, up to the first value that has none. -/
def literals (d : Dialect) : List Datum → Except Failure (List String)
  | [] => .ok []
  | value :: rest => do
    let literal ← d.literal value
    return literal :: (← d.literals rest)

end Dialect

end StagedColumns
