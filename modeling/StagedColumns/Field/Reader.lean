import StagedColumns.Checked

/-!
# Reading user fields

A field is configured as a record. Every attribute has a camel-case and a snake-case spelling, and
two attributes of a temp table have a third one. Of several spellings of one attribute the first one
in the order of the list is read; what remains in the record is forbidden. Issues are located by the
spelling that was read, a missing attribute by the first spelling of its list.
-/

set_option autoImplicit false

namespace StagedColumns

/-- The entries of a record in a configuration. -/
abbrev RawRecord := List (String × Datum)

namespace RawRecord

/-- The first of the spellings that has a value, with the value. -/
def spelled? (r : RawRecord) : List String → Option (String × Datum)
  | [] => none
  | name :: others =>
    match r.lookup name with
    | some value => some (name, value)
    | none => r.spelled? others

/-- The issues of the names that stand for none of the attributes, given by their spellings, or
repeat one. -/
def leftOver (r : RawRecord) (attributes : List (List String)) : List Issue :=
  let read := attributes.filterMap fun spellings ↦ (r.spelled? spellings).map Prod.fst
  (r.filter fun entry ↦ !read.contains entry.1).map fun entry ↦ ⟨[entry.1], .forbidden⟩

/-- A required name: a text with at least one character. -/
def readName (r : RawRecord) (spellings : List String) : Checked String :=
  match r.spelled? spellings with
  | none => .reject (spellings.take 1) .missing
  | some (name, value) =>
    match value.readText with
    | .error rule => .reject [name] rule
    | .ok s => if s = "" then .reject [name] .tooShort else .accept s

/-- A text that may be absent. -/
def readOptional (r : RawRecord) (spellings : List String) : Checked (Option String) :=
  match r.spelled? spellings with
  | none | some (_, .null) => .accept none
  | some (name, value) => (Checked.text [name] value).map some

/-- The entries of a record of texts. -/
def readTexts : RawRecord → Checked (List (String × String))
  | [] => .accept []
  | (name, value) :: rest =>
    (Checked.map (fun s others ↦ (name, s) :: others) (.text [name] value)).apply (readTexts rest)

end RawRecord

namespace TempTable

/-! The spellings of the attributes, each list in the order of preference. -/

def nameSpellings : List String := ["table"]
def keySpellings : List String := ["pk"]
def actorSpellings : List String := ["actor_field", "actorField", "field"]
def mainKeySpellings : List String := ["join_pk", "joinPk", "joinPK"]
def copySpellings : List String := ["extra"]

/-- The columns that repeat one of the main table; none, if they are not given. -/
def readCopies (r : RawRecord) : Checked (OrderedMap String) :=
  match r.spelled? copySpellings with
  | none => .accept .empty
  | some (name, .record columns) =>
    ((RawRecord.readTexts columns).map OrderedMap.ofList).under name
  | some (name, _) => .reject [name] .notRecord

/-- The temp table that a record describes. -/
def ofRecord (r : RawRecord) : Checked TempTable :=
  (Checked.accept fun name keyColumn actorColumn mainKey copies (_ : Unit) ↦
      (⟨name, keyColumn, actorColumn, mainKey, copies⟩ : TempTable))
    |>.apply (r.readName nameSpellings)
    |>.apply (r.readName keySpellings)
    |>.apply (r.readName actorSpellings)
    |>.apply (r.readName mainKeySpellings)
    |>.apply (readCopies r)
    |>.apply (.withIssues () (r.leftOver
      [nameSpellings, keySpellings, actorSpellings, mainKeySpellings, copySpellings]))

end TempTable

namespace UserField

/-! The spellings of the attributes, each list in the order of preference. -/

def textSpellings : List String := ["textField", "text_field"]
def actorSpellings : List String := ["actorField", "actor_field"]
def tempTableSpellings : List String := ["tempTable", "temp_table"]
def deprecatedSpellings : List String := ["deprecatedVersion", "deprecated_version"]
def removedSpellings : List String := ["removedVersion", "removed_version"]
def formerTempTableSpellings : List String :=
  ["formerTempTableVersion", "former_temp_table_version"]
def componentSpellings : List String := ["component"]

/-- A temp table that may be absent, and that may be read already. -/
def readTempTable (r : RawRecord) : Checked (Option TempTable) :=
  match r.spelled? tempTableSpellings with
  | none | some (_, .null) => .accept none
  | some (_, .tempTable t) => .accept (some t)
  | some (name, .record attributes) => ((TempTable.ofRecord attributes).map some).under name
  | some (name, _) => .reject [name] .notTempTable

/-- The field that a record describes. -/
def ofRecord (r : RawRecord) : Checked UserField :=
  (Checked.accept fun textColumn actorColumn tempTable deprecated removed former component
      (_ : Unit) =>
      (⟨textColumn, actorColumn, tempTable, deprecated, removed, former, component⟩ : UserField))
    |>.apply (r.readOptional textSpellings)
    |>.apply (r.readOptional actorSpellings)
    |>.apply (readTempTable r)
    |>.apply (r.readOptional deprecatedSpellings)
    |>.apply (r.readOptional removedSpellings)
    |>.apply (r.readOptional formerTempTableSpellings)
    |>.apply (r.readOptional componentSpellings)
    |>.apply (.withIssues () (r.leftOver
      [textSpellings, actorSpellings, tempTableSpellings, deprecatedSpellings, removedSpellings,
        formerTempTableSpellings, componentSpellings]))

/-- The field configured under a key: one that is read already, or a record. -/
def ofDatum (key : String) : Datum → Except Failure UserField
  | .field f => .ok f
  | .record entries => (ofRecord entries).result.mapError (.fieldInvalid key)
  | other => .error (.fieldNotRecord key other.typeName)

end UserField

end StagedColumns
