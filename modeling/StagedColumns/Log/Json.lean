import StagedColumns.Datum.Shown

/-!
# Data as JSON

Log lines for machines are JSON objects in ASCII with their names in order. Tuples are arrays, and a
value that JSON cannot hold is the text that shows it in full.
-/

set_option autoImplicit false

namespace StagedColumns.Log

/-- A code unit of sixteen bits as an escape. -/
def escapeUnit (unit : Nat) : List Char :=
  '\\' :: 'u' :: Text.paddedHex 4 unit

/-- One character inside a JSON text. Characters above sixteen bits become two escapes. -/
def jsonChar (c : Char) : List Char :=
  if c = '"' ∨ c = '\\' then ['\\', c]
  else if c = '\n' then ['\\', 'n']
  else if c = '\r' then ['\\', 'r']
  else if c = '\t' then ['\\', 't']
  else if c.toNat = 8 then ['\\', 'b']
  else if c.toNat = 12 then ['\\', 'f']
  else if 0x20 ≤ c.toNat ∧ c.toNat < 0x7f then [c]
  else if c.toNat < 0x10000 then escapeUnit c.toNat
  else
    let rest := c.toNat - 0x10000
    escapeUnit (0xd800 + rest / 0x400) ++ escapeUnit (0xdc00 + rest % 0x400)

/-- A text as JSON. -/
def jsonText (s : String) : String :=
  String.ofList ('"' :: s.toList.flatMap jsonChar ++ ['"'])

/-- A floating-point number as JSON, with words for what is no number or not finite. -/
def jsonFloat (x : Floating) : String :=
  if x.text = "nan" then "NaN"
  else if x.text = "inf" then "Infinity"
  else if x.text = "-inf" then "-Infinity"
  else x.text

/-- Named JSON values as an object, in the order of the names. -/
def jsonObject (members : List (String × String)) : String :=
  let sorted := members.mergeSort fun a b ↦ a.1 ≤ b.1
  Datum.bracketed "\x7b" "\x7d" (sorted.map fun member ↦ jsonText member.1 ++ ": " ++ member.2)

mutual

/-- A value as JSON. -/
def json : Datum → String
  | .null => "null"
  | .bool b => if b then "true" else "false"
  | .int n => toString n
  | .float x => jsonFloat x
  | .text s => jsonText s
  | .list items => Datum.bracketed "[" "]" (jsonItems items)
  | .tuple items => Datum.bracketed "[" "]" (jsonItems items)
  | .record entries => jsonObject (jsonMembers entries)
  | other => jsonText other.shown
termination_by structural d => d

/-- Each item as JSON. -/
def jsonItems : List Datum → List String
  | [] => []
  | item :: rest => json item :: jsonItems rest
termination_by structural items => items

/-- Each entry with its value as JSON. -/
def jsonMembers : List (String × Datum) → List (String × String)
  | [] => []
  | (name, value) :: rest => (name, json value) :: jsonMembers rest
termination_by structural entries => entries

end

end StagedColumns.Log
