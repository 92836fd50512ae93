import StagedColumns.Failure.Circumstances

/-!
# Failure reports

What a caller sees of a failure that the library reports: its kind, its message, a category for
alerts, the circumstances in which it arose, and the failure behind it. Callers can ask for reports
of their own by kind. Such a report is a draft at first: whether its category and its circumstances
are what they should be is found out when it is made out.
-/

set_option autoImplicit false

namespace StagedColumns

/-- A category of failures, for alerts. -/
inductive Category
  | config
  | usage
  | removed
  | storage
  | internal
deriving DecidableEq

/-- How a category is written. -/
def Category.name : Category → String
  | .config => "CONFIG"
  | .usage => "USAGE"
  | .removed => "REMOVED"
  | .storage => "STORAGE"
  | .internal => "INTERNAL"

/-- The category of a name. -/
def Category.ofName? (name : String) : Option Category :=
  [Category.config, .usage, .removed, .storage, .internal].find? (·.name = name)

/-- A kind of failure. -/
inductive Kind
  | general
  | config
  | invalidStage
  | usage
  | unknownKey
  | wrongWrite
  | invalidUsers
  | missingValue
  | fieldRemoved
  | storage
deriving DecidableEq

namespace Kind

/-- How a kind is written. -/
def name : Kind → String
  | general => "ActorMigrationError"
  | config => "ConfigError"
  | invalidStage => "InvalidStageError"
  | usage => "UsageError"
  | unknownKey => "UnknownFieldError"
  | wrongWrite => "TempTableMismatchError"
  | invalidUsers => "InvalidUsersError"
  | missingValue => "MissingExtraValueError"
  | fieldRemoved => "FieldRemovedError"
  | storage => "StorageError"

/-- The kind of a name. -/
def ofName? (name : String) : Option Kind :=
  [general, config, invalidStage, usage, unknownKey, wrongWrite, invalidUsers, missingValue,
    fieldRemoved, storage].find? (·.name = name)

/-- The kind and the more general kinds that it belongs to, the most general one last. -/
def family : Kind → List Kind
  | general => [general]
  | config => [config, general]
  | invalidStage => [invalidStage, config, general]
  | usage => [usage, general]
  | unknownKey => [unknownKey, usage, general]
  | wrongWrite => [wrongWrite, usage, general]
  | invalidUsers => [invalidUsers, usage, general]
  | missingValue => [missingValue, usage, general]
  | fieldRemoved => [fieldRemoved, general]
  | storage => [storage, general]

/-- The category of failures of the kind. -/
def category : Kind → Category
  | general => .internal
  | config | invalidStage => .config
  | usage | unknownKey | wrongWrite | invalidUsers | missingValue => .usage
  | fieldRemoved => .removed
  | storage => .storage

/-- Failures of the kind say that a value handed in was wrong. -/
def blamesValue : Kind → Bool
  | general | storage => false
  | _ => true

end Kind

/-- What a caller sees of a failure. -/
structure Report where
  kind : Kind
  message : Datum
  category : Category
  circumstances : Circumstances
  /-- What the failure behind this one says. -/
  cause : Option String
  /-- What the kind of failure is about, by name. -/
  subject : List (String × Datum)

namespace Failure

/-- The failure behind a failure. -/
def cause? : Failure → Option Failure
  | upsertFailed _ cause => some cause
  | fieldInvalid _ issues => some (invalid issues)
  | _ => none

/-- The kind of a failure that the library reports. -/
def kind? : Failure → Option Kind
  | stage _ => some .invalidStage
  | fieldNotRecord .. | fieldInvalid .. => some .config
  | unknownKey .. => some .unknownKey
  | fieldRemoved .. => some .fieldRemoved
  | wrongWrite .. => some .wrongWrite
  | invalidUsers .. => some .invalidUsers
  | missingValue .. => some .missingValue
  | noConditions | emptyValues _ | needsTempTable _ | needsActor | needsPrimaryKey _ => some .usage
  | upsertFailed .. => some .storage
  | _ => none

/-- The circumstances that a failure is reported with. -/
def circumstances : Failure → Circumstances
  | stage fault => .of [("stage", (fault.given?.map Datum.text).getD .null)]
  | fieldNotRecord key _ | fieldInvalid key _ => .of [("key", key)]
  | unknownKey key owner | fieldRemoved key _ _ owner => .of [("key", key), ("owner", owner)]
  | wrongWrite key expected => .of [("key", key), ("operation", expected)]
  | invalidUsers operation _ => .of [("operation", operation)]
  | missingValue key _ => .of [("key", key), ("operation", "complete")]
  | upsertFailed table _ => .of [(Circumstances.metadataName, .record [("table", table)])]
  | _ => .none

/-- What a failure is about, by name. -/
def subject : Failure → List (String × Datum)
  | unknownKey key _ => [("key", key)]
  | fieldRemoved key version component _ =>
    [("key", key), ("version", version), ("component", component)]
  | wrongWrite key expected => [("key", key), ("expected", expected)]
  | invalidUsers _ type => [("value_type", type)]
  | missingValue key column => [("key", key), ("source_column", column)]
  | _ => []

/-- The report of a failure as one of a kind. -/
def reportAs (f : Failure) (kind : Kind) : Report :=
  ⟨kind, f.message, kind.category, f.circumstances, f.cause?.map message, f.subject⟩

/-- The report of a failure that the library reports. -/
def report? (f : Failure) : Option Report :=
  f.kind?.map f.reportAs

end Failure

/-- What callers give with a report besides its arguments. -/
structure Particulars where
  category : Option Category
  circumstances : Option Circumstances
  /-- What the failure behind the reported one says. -/
  cause : Option String

namespace Particulars

/-- The name of the parameter for the category. -/
def categoryName : String :=
  "category"

/-- The name of the parameter for the circumstances. -/
def circumstancesName : String :=
  "context"

/-- The name of the parameter for the failure behind the reported one. -/
def causeName : String :=
  "cause"

/-- The names of the parameters for the particulars that are given. -/
def names (p : Particulars) : List String :=
  (p.category.map fun _ ↦ categoryName).toList ++
    (p.circumstances.map fun _ ↦ circumstancesName).toList ++
    (p.cause.map fun _ ↦ causeName).toList

/-- Arguments that came by name, those for the particulars left empty. -/
def clear (p : Particulars) (named : List (String × Datum)) : List (String × Datum) :=
  ((OrderedMap.ofList named).putAll (p.names.map fun name ↦ (name, .null))).entries

end Particulars

/-- The signature of a report of a kind. -/
def Kind.signature : Kind → Signature
  | general | config | usage | storage =>
    .ofThing "ActorMigrationError.__init__" [.required "message"]
      ([Particulars.categoryName, Particulars.circumstancesName, Particulars.causeName].map
        (Parameter.optional · .null))
  | invalidStage =>
    .ofThing "InvalidStageError.__init__" [.required "message"] [.optional "stage" .null]
  | unknownKey => .ofThing "UnknownFieldError.__init__" [.required "key"] [.required "owner"]
  | wrongWrite =>
    .ofThing "TempTableMismatchError.__init__" [.required "key"] [.required "expected"]
  | invalidUsers =>
    .ofThing "InvalidUsersError.__init__" [.required "value"] [.optional "operation" "build_where"]
  | missingValue =>
    .ofThing "MissingExtraValueError.__init__" [.required "key", .required "source_column"] []
  | fieldRemoved =>
    .ofThing "FieldRemovedError.__init__" [.required "key"]
      (["version", "component", "owner"].map Parameter.required)

/-- A part of a report that is made out: a value, or a listing of circumstances. -/
inductive Part
  | value (d : Datum)
  | listing (l : Listing)

namespace Report

/-- The report of a kind that the values of the parameters give. -/
def ofValues (kind : Kind) (value : String → Datum) : Report :=
  match kind with
  | .general | .config | .usage | .storage =>
    ⟨kind, value "message", kind.category, .none, none, []⟩
  | .invalidStage =>
    let stage :=
      match value "stage" with
      | .null => .null
      | stage => .text stage.plain
    ⟨kind, value "message", kind.category, .of [("stage", stage)], none, []⟩
  | .unknownKey => (Failure.unknownKey (value "key") (value "owner")).reportAs kind
  | .wrongWrite => (Failure.wrongWrite (value "key") (value "expected")).reportAs kind
  | .invalidUsers =>
    (Failure.invalidUsers (value "operation") (value "value").typeName).reportAs kind
  | .missingValue => (Failure.missingValue (value "key") (value "source_column")).reportAs kind
  | .fieldRemoved =>
    (Failure.fieldRemoved (value "key") (value "version") (value "component")
      (value "owner")).reportAs kind

/-- The parts of the report by name. Circumstances and cause are there only if there are any. -/
def parts (r : Report) : Except Failure (List (String × Part)) := do
  let listing ← r.circumstances.listing
  return [("error_type", .value r.kind.name), ("message", .value r.message),
      ("category", .value r.category.name)] ++
    (if listing.isEmpty then [] else [("context", .listing listing)]) ++
    (r.cause.map fun cause ↦ ("cause", Part.value cause)).toList

/-- The report as one line. -/
def shown (r : Report) : String :=
  r.kind.name ++ "(" ++ r.message.shown ++ ", category=" ++ r.category.name ++ ")"

end Report

/-- A report that callers ask for. -/
structure Draft where
  report : Report
  /-- The value that stands in the place of the category, if one does. -/
  category? : Option Datum
  /-- What stands in the place of the circumstances, if something does. -/
  substitute? : Option Substitute

namespace Draft

/-- The draft of a report of a kind. A category and circumstances that count as false stand for
nothing. -/
def ask (kind : Kind) (given : List Datum) (named : List (String × Datum)) (p : Particulars) :
    Except Failure Draft := do
  let values ← kind.signature.valuesForThing given (p.clear named)
  let value (name : String) : Datum := (values.get? name).getD .null
  let standIn (name : String) : Option Datum := (some (value name)).filter Datum.truthy
  match value Particulars.causeName with
  | .null =>
    let r := Report.ofValues kind value
    return {
      report := { r with
        category := p.category.getD r.category
        circumstances := p.circumstances.getD r.circumstances
        cause := p.cause }
      category? := standIn Particulars.categoryName
      substitute? := (standIn Particulars.circumstancesName).map .of }
  | _ => throw .noCause

/-- The draft with circumstances added one after the other. -/
def withCircumstances (d : Draft) (added : List (String × Datum)) : Except Failure Draft := do
  if added.any (·.1 = Signature.receiver) then
    throw (.arguments (.repeated "ActorMigrationError.with_context" Signature.receiver))
  match d.substitute? with
  | some s => return { d with substitute? := some (← s.addAll added) }
  | none =>
    let circumstances ← d.report.circumstances.addAll added
    return { d with report := { d.report with circumstances := circumstances } }

/-- The report, unless a value stands in the place of its category or its circumstances. -/
def made (d : Draft) : Except Failure Report :=
  match d.category?, d.substitute? with
  | some value, _ => .error (.noAttribute value.typeName "value")
  | none, some s => .error s.refusal
  | none, none => .ok d.report

end Draft

end StagedColumns
