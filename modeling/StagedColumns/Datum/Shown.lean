import StagedColumns.Datum
import StagedColumns.Text.Quoted

/-!
# How data are shown in messages

A message shows a value either as itself, which leaves a text as it is, or in full, which quotes
texts. Inside a list, a tuple, a set or a record every item is shown in full.
-/

set_option autoImplicit false

namespace StagedColumns

namespace Datum

/-- The items between brackets. -/
def bracketed (opening closing : String) (items : List String) : String :=
  opening ++ ", ".intercalate items ++ closing

/-- The items of a tuple: one item alone has a comma after it. -/
def bracketedTuple : List String → String
  | [item] => "(" ++ item ++ ",)"
  | items => bracketed "(" ")" items

/-- The items of a set; the empty set has a form of its own. -/
def bracketedSet : List String → String
  | [] => "set()"
  | items => bracketed "\x7b" "\x7d" items

/-- The two truth values. -/
def shownBool (b : Bool) : String :=
  if b then "True" else "False"

/-- A text that may be absent. -/
def shownOptional : Option String → String
  | some s => Text.quoted s
  | none => "None"

/-- Named parts, each after its name and an equals sign. -/
def assignments (parts : List (String × String)) : List String :=
  parts.map fun part ↦ part.1 ++ "=" ++ part.2

/-- The attributes of a temp table by name, each in full. -/
def shownTempTable (t : TempTable) : List (String × String) :=
  [("table", Text.quoted t.name), ("pk", Text.quoted t.keyColumn),
   ("actor_field", Text.quoted t.actorColumn), ("join_pk", Text.quoted t.mainKey),
   ("extra", bracketed "\x7b" "\x7d"
     (t.copies.entries.map fun entry ↦ Text.quoted entry.1 ++ ": " ++ Text.quoted entry.2))]

/-- A temp table in full. -/
def tempTableInFull (t : TempTable) : String :=
  bracketed "TempTableSpec(" ")" (assignments (shownTempTable t))

/-- The attributes of a user field by name, each in full. -/
def shownField (f : UserField) : List (String × String) :=
  [("text_field", shownOptional f.textColumn), ("actor_field", shownOptional f.actorColumn),
   ("temp_table", (f.tempTable.map tempTableInFull).getD "None"),
   ("deprecated_version", shownOptional f.deprecatedIn),
   ("removed_version", shownOptional f.removedIn),
   ("former_temp_table_version", shownOptional f.formerTempTableIn),
   ("component", shownOptional f.component)]

/-- The two modes of a stage. -/
def shownStage (s : Stage) : String :=
  "MigrationStage(write=<WriteMode." ++ s.writing.name.toUpper ++ ": '" ++ s.writing.name ++
    "'>, read=<ReadMode." ++ s.reading.name.toUpper ++ ": '" ++ s.reading.name ++ "'>)"

mutual

/-- The value in full. -/
def shown : Datum → String
  | .null => "None"
  | .bool b => shownBool b
  | .int n => toString n
  | .float x => x.text
  | .text s => Text.quoted s
  | .bytes data => Text.quotedBytes data
  | .list items => bracketed "[" "]" (shownItems items)
  | .tuple items => bracketedTuple (shownItems items)
  | .bag items => bracketedSet (shownItems items)
  | .stream _ => "<list_iterator>"
  | .record entries => bracketed "\x7b" "\x7d" (shownEntries entries)
  | .foreign => "<opaque>"
  | .user id name domain =>
    bracketed "UserIdentity(" ")"
      ["id=" ++ toString id, "name=" ++ Text.quoted name, "domain=" ++ domain.shown]
  | .stage s => shownStage s
  | .field f => bracketed "FieldSpec(" ")" (assignments (shownField f))
  | .tempTable t => tempTableInFull t
termination_by structural d => d

/-- Each item in full. -/
def shownItems : List Datum → List String
  | [] => []
  | item :: rest => item.shown :: shownItems rest
termination_by structural items => items

/-- Each entry with its name and value in full. -/
def shownEntries : List (String × Datum) → List String
  | [] => []
  | (name, value) :: rest => (Text.quoted name ++ ": " ++ value.shown) :: shownEntries rest
termination_by structural entries => entries

end

/-- The value as itself: a text unchanged, a stage by its label, all else in full. -/
def plain : Datum → String
  | .text s => s
  | .stage s => s.label
  | .field f => " ".intercalate (assignments (shownField f))
  | .tempTable t => " ".intercalate (assignments (shownTempTable t))
  | d => d.shown

end Datum

end StagedColumns
