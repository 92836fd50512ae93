import StagedColumns.Datum.Shown

/-!
# Single spaces

Lines can be wanted without two spaces in a row. In a line for people that is a matter of its
characters; a line for machines gets single spaces in the texts of its facts before it is written.
-/

set_option autoImplicit false

namespace StagedColumns.Log

/-- The characters with every run of spaces cut down to one. -/
def singleSpaces : List Char → List Char
  | ' ' :: ' ' :: rest => singleSpaces (' ' :: rest)
  | c :: rest => c :: singleSpaces rest
  | [] => []

/-- A text with every run of spaces cut down to one. -/
def singleSpaced (s : String) : String :=
  String.ofList (singleSpaces s.toList)

mutual

/-- A value with single spaces in its texts. A value that JSON cannot hold becomes the text that
shows it, and of names that become the same the last one counts. -/
def narrow : Datum → Datum
  | .null => .null
  | .bool b => .bool b
  | .int n => .int n
  | .float x => .float x
  | .text s => .text (singleSpaced s)
  | .list items => .list (narrowItems items)
  | .tuple items => .tuple (narrowItems items)
  | .record entries => .record (OrderedMap.ofList (narrowEntries entries)).entries
  | other => .text (singleSpaced other.shown)
termination_by structural d => d

/-- Each item with single spaces. -/
def narrowItems : List Datum → List Datum
  | [] => []
  | item :: rest => narrow item :: narrowItems rest
termination_by structural items => items

/-- Each entry with single spaces in its name and its value. -/
def narrowEntries : List (String × Datum) → List (String × Datum)
  | [] => []
  | (name, value) :: rest => (singleSpaced name, narrow value) :: narrowEntries rest
termination_by structural entries => entries

end

end StagedColumns.Log
