import StagedColumns.Checked
import StagedColumns.Log.Logging
import StagedColumns.Stage.Reader

/-!
# Deployments

How the migration is deployed: its stage, how keys that are not in the table are treated, and how
logging is set up. Each setting is taken from the first of four sources that has it: values given by
the program, the environment, a file of environment lines, and a default. In the environment and the
file a setting goes by its name after a common lead. Letter case does not count in any source, and
names that are no settings are passed over.
-/

set_option autoImplicit false

namespace StagedColumns

/-- The settings of a deployment. -/
structure Deployment where
  /-- The stage as a text, which counts before the two modes. -/
  stageText : Option String
  writing : Writing
  reading : Schema
  othersAllowed : Bool
  component : String
  logLevel : String
  /-- Log lines for machines; where nothing is said, the kind of output decides. -/
  jsonLogs : Option Bool
deriving DecidableEq

/-- Where settings are looked for. -/
structure Sources where
  given : List (String × Datum)
  environment : List (String × String)
  /-- The lines of the file, each a name and a value with an equals sign between them. -/
  fileLines : List String

namespace Sources

/-- What every name in the environment begins with. -/
def lead : String :=
  "actor_migration_"

/-- The last value in a list of variables under the name of a setting. -/
def lastVariable (setting : String) (assigned : List (String × String)) : Option String :=
  (assigned.reverse.find? fun entry ↦ Text.lowercase entry.1 = lead ++ setting).map Prod.snd

/-- The variable that a line of the file sets. -/
def lineVariable (line : String) : Option (String × String) :=
  (Text.cutAt? ['='] line.toList).map fun halves ↦
    (String.ofList halves.1, String.ofList halves.2)

/-- The variables that the file sets. A line that sets a variable once more changes its value, and
the variable keeps its place. -/
def fileVariables (s : Sources) : List (String × String) :=
  (OrderedMap.ofList (s.fileLines.filterMap lineVariable)).entries

/-- The first value given under the name of a setting. -/
def firstGiven (setting : String) (given : List (String × Datum)) : Option Datum :=
  (given.find? fun entry ↦ Text.lowercase entry.1 = setting).map Prod.snd

/-- The value of a setting in the first source that has it. -/
def value? (s : Sources) (setting : String) : Option Datum :=
  match firstGiven setting s.given with
  | some value => some value
  | none =>
    match lastVariable setting s.environment with
    | some value => some (.text value)
    | none => (lastVariable setting s.fileVariables).map Datum.text

end Sources

namespace Deployment

/-- The words for the truth values, in lower case. -/
def truthWords : List (String × Bool) :=
  [("1", true), ("true", true), ("t", true), ("yes", true), ("y", true), ("on", true),
    ("0", false), ("false", false), ("f", false), ("no", false), ("n", false), ("off", false)]

/-- The truth value of a word, in any ASCII letter case. -/
def readWord (word : String) : Except Rule Bool :=
  match truthWords.lookup word.toLower with
  | some b => .ok b
  | none => .error .unreadableBool

/-- The number fits into 64 bits with a sign. -/
def isWordSized (n : Int) : Bool :=
  n.natAbs < 0x8000000000000000 || n == -0x8000000000000000

/-- The truth value of a number. A number that fits into 64 bits is looked at and found to be
neither, a wider one is not taken for a truth value at all. -/
def readNumber (n : Int) : Except Rule Bool :=
  if n = 0 then .ok false
  else if n = 1 then .ok true
  else if isWordSized n then .error .unreadableBool
  else .error .notBool

/-- The truth value that a value stands for. A floating-point number is looked at as a number if it
equals an integer whose magnitude fits into 63 bits. -/
def readBool : Datum → Except Rule Bool
  | .bool b => .ok b
  | .text word => readWord word
  | .bytes data =>
    match String.fromUTF8? ⟨data.toArray⟩ with
    | some word => readWord word
    | none => .error .unreadableBool
  | .int n => readNumber n
  | .float x =>
    match x.integer? with
    | some n => if n.natAbs < 0x8000000000000000 then readNumber n else .error .notBool
    | none => .error .notBool
  | _ => .error .notBool

/-- A choice among names. Bytes count as the name that they encode. -/
def readChoice {α : Type} (ofName? : String → Option α) (d : Datum) : Except Rule α :=
  match d.readText.toOption.bind ofName? with
  | some choice => .ok choice
  | none => .error .notChoice

/-- A value that may be absent. -/
def readOptional {α : Type} (read : Datum → Except Rule α) : Datum → Except Rule (Option α)
  | .null => .ok none
  | value => (read value).map some

/-- A setting: its default where no source has it, otherwise what its value is read as. -/
def setting {α : Type} (s : Sources) (name : String) (default : α)
    (read : Datum → Except Rule α) : Checked α :=
  match s.value? name with
  | none => .accept default
  | some value =>
    match read value with
    | .ok a => .accept a
    | .error rule => .reject [name] rule

/-- The settings that the sources give. -/
def ofSources (s : Sources) : Checked Deployment :=
  (Checked.accept Deployment.mk)
    |>.apply (setting s "stage" none (readOptional Datum.readText))
    |>.apply (setting s "write_mode" .both (readChoice Writing.ofName?))
    |>.apply (setting s "read_mode" .old (readChoice Schema.ofName?))
    |>.apply (setting s "allow_unknown" true readBool)
    |>.apply (setting s "default_component" "core" Datum.readText)
    |>.apply (setting s "log_level" "INFO" Datum.readText)
    |>.apply (setting s "json_logs" none (readOptional readBool))

/-- The stage of the deployment: that of the text, if there is one that is not empty, otherwise that
of the two modes. -/
def stage (d : Deployment) : Except Failure Stage :=
  match d.stageText with
  | none | some "" => (Stage.ofModes d.writing d.reading).mapError .stage
  | some text => (Stage.ofText text).mapError .stage

/-- The name of the parameter for the service that logs. -/
def serviceName : String :=
  "service"

/-- The signature of setting up logging for a deployment. -/
def logSignature : Signature :=
  .ofThing "ActorMigrationSettings.apply_logging" [.optional serviceName Log.defaultService] []

/-- How logging is to be set up for what comes by its place, which is the service at most. -/
def logOptions (d : Deployment) (given : List Datum) : Except Failure Log.Options := do
  let values ← logSignature.valuesForThing given []
  return { Log.Options.standard with
    level := .text d.logLevel
    forMachines := (d.jsonLogs.map Datum.bool).getD .null
    service := (values.get? serviceName).getD .null }

end Deployment

end StagedColumns
