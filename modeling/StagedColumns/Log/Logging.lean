import StagedColumns.Log.Line
import StagedColumns.Log.Method
import StagedColumns.Operation
import StagedColumns.Signature
import StagedColumns.Text.Uppercase

/-!
# Logging

Logging is set up once and may be set up again. A setup says which service logs, from which level on
and in which form; the level of the first setup remains a floor that later ones cannot lower.
Details can be bound, so that every later event has them unless it has details of its own under the
same names, and a scope binds details when it is entered and unbinds their names when it is left.
-/

set_option autoImplicit false

namespace StagedColumns.Log

/-- The form of the lines, and the level from which on they are printed. -/
structure Setup where
  threshold : Nat
  forMachines : Bool
  timestamps : Bool
deriving DecidableEq

/-- The state of logging. -/
structure Logging where
  service : Datum
  setup : Option Setup
  /-- The threshold of the first setup. -/
  floor : Option Nat
  bound : OrderedMap Datum
  /-- The names that each open scope has bound, the innermost scope first. -/
  scopes : List (List String)
  /-- Lines for machines have single spaces, as lines for people always do. -/
  spaced : Bool

/-- The service that logs where none is named. -/
def defaultService : String :=
  "actor-migration"

/-- Logging before any setup. -/
def Logging.fresh (spaced : Bool) : Logging :=
  ⟨defaultService, none, none, .empty, [], spaced⟩

/-- What a setup is asked for. -/
structure Options where
  level : Datum
  /-- Lines for machines; the absent value leaves the choice to the kind of output. -/
  forMachines : Datum
  service : Datum
  timestamps : Datum

/-- What is asked for where nothing is said. -/
def Options.standard : Options :=
  ⟨"INFO", .null, defaultService, .bool true⟩

/-- The options with the named ones changed. -/
def Options.change (o : Options) : List (String × Datum) → Except Failure Options
  | [] => .ok o
  | (name, value) :: rest =>
    if name = "level" then { o with level := value }.change rest
    else if name = "json_format" then { o with forMachines := value }.change rest
    else if name = "service" then { o with service := value }.change rest
    else if name = "add_timestamp" then { o with timestamps := value }.change rest
    else .error (.arguments (.unexpected "configure_logging" name))

/-- The names of levels and how high they are. -/
def thresholds : List (String × Nat) :=
  [("CRITICAL", 50), ("FATAL", 50), ("ERROR", 40), ("WARNING", 30), ("WARN", 30), ("INFO", 20),
    ("DEBUG", 10), ("NOTSET", 0)]

/-- The name that stands for the standard form of a line where levels are expected. -/
def formName : String :=
  "BASIC_FORMAT"

/-- The standard form of a line. -/
def standardForm : String :=
  "%(levelname)s:%(name)s:%(message)s"

/-- The name that stands for the table of forms where levels are expected. -/
def formTableName : String :=
  "_STYLES"

/-- How high the level is that goes by a name in upper case. Two names among those of levels stand
for something else. -/
def thresholdNamed (name : String) : Except Failure Nat :=
  if name = formName then .error (.notFound (Text.quoted standardForm))
  else if name = formTableName then .error (.changeable "dict")
  else
    match thresholds.lookup name with
    | some height => .ok height
    | none => .error (.unknownLevel name)

/-- How high the level is that a value names, in any letter case. -/
def thresholdOf : Datum → Except Failure Nat
  | .text s => thresholdNamed (Text.uppercase s)
  | level@(.bytes _) => .error (.nameNotText level.typeName)
  | other => .error (.noAttribute other.typeName "upper")

namespace Logging

/-- Sets logging up. Since the output is no terminal, lines are for machines unless it is said that
they are not. The service is named even if the level is refused. -/
def configure (o : Options) : Operation String Logging Unit := do
  Operation.change fun log ↦ { log with service := o.service }
  let threshold ← Operation.ofExcept (thresholdOf o.level)
  let forMachines :=
    match o.forMachines with
    | .null => true
    | choice => choice.truthy
  Operation.change fun log ↦
    { log with
      setup := some ⟨threshold, forMachines, o.timestamps.truthy⟩
      floor := some (log.floor.getD threshold) }

/-- Binds details. -/
def bind (details : List (String × Datum)) : Operation String Logging Unit :=
  Operation.change fun log ↦ { log with bound := log.bound.putAll details }

/-- Unbinds names. -/
def unbind (names : List String) : Operation String Logging Unit :=
  Operation.change fun log ↦ { log with bound := names.foldl OrderedMap.erase log.bound }

/-- Unbinds all names. -/
def clear : Operation String Logging Unit :=
  Operation.change fun log ↦ { log with bound := .empty }

/-- Enters a scope with details, which cannot go by the name of the scope itself. -/
def enter (details : List (String × Datum)) : Operation String Logging Unit := do
  if details.any (·.1 = Signature.receiver) then
    Operation.fail (.arguments (.repeated "LogContext.__init__" Signature.receiver))
  bind details
  Operation.change fun log ↦ { log with scopes := details.map Prod.fst :: log.scopes }

/-- Leaves the innermost scope. -/
def leave : Operation String Logging Unit := do
  match (← Operation.look).scopes with
  | [] => Operation.fail .noOpenScope
  | names :: outer =>
    unbind names
    Operation.change fun log ↦ { log with scopes := outer }

/-- The bound details in the order of their names. -/
def context (log : Logging) : List (String × Datum) :=
  log.bound.entries.mergeSort fun a b ↦ a.1 ≤ b.1

/-! ### Reporting -/

/-- The type of the loggers that a setup gives out, which is named for its threshold. -/
def loggerType (setup : Setup) : String :=
  "BoundLoggerFilteringAt" ++
    match setup.threshold with
    | 10 => "Debug"
    | 20 => "Info"
    | 30 => "Warning"
    | 40 => "Error"
    | 50 => "Critical"
    | _ => "Notset"

/-- The name of a logger without a name. -/
def rootLogger : String :=
  "root"

/-- The name of a logger. What counts as false names none, and all else has to be a text. -/
def loggerName (logger : Datum) : Except Failure String :=
  match logger, logger.truthy with
  | _, false => .ok rootLogger
  | .text name, true => .ok name
  | _, true => .error .loggerNotText

/-- The method of a name of the loggers that a setup gives out. -/
def methodOf (setup : Setup) (logger name : Datum) : Except Failure Method :=
  match name with
  | .text name =>
    match Method.ofName? name with
    | some method => do
      if method.needsLogger then
        let _ ← loggerName logger
      return method
    | none => do
      let _ ← loggerName logger
      throw (.noAttribute (loggerType setup) name)
  | other => .error (.nameNotText other.typeName)

/-- The setup lets events of the level through. -/
def passes (setup : Setup) (level : Level) : Bool :=
  setup.threshold ≤ level.rank

/-- What stands in a line in place of the time. -/
def now : String :=
  "<now>"

/-- The name of the fact that tells where an event was recorded. -/
def recordName : String :=
  "_record"

/-- The name of the logger in a line: that of the record, if there is one. Of all values only users
have a name. -/
def nameIn (logger : String) : Option Datum → Except Failure String
  | none | some .null => .ok logger
  | some (.user _ name _) => .ok name
  | some other => .error (.noAttribute other.typeName "name")

/-- The facts of an event: its own details, its text unless there is none, the time if that is asked
for, and below them the bound details; the level and the logger replace whatever goes by their
names. -/
def facts (log : Logging) (setup : Setup) (logger : String) (level : Level) (event : Datum)
    (details : OrderedMap Datum) : Except Failure Facts := do
  let own :=
    match event with
    | .null => details
    | event => details.put "event" event
  let timed := if setup.timestamps then own.put "timestamp" now else own
  let all := log.bound.entries.foldl (fun facts entry ↦ facts.putNew entry.1 entry.2) timed
  let name ← nameIn logger (all.get? recordName)
  return withService log.service <|
    ((all.put "level" level.name).put "logger" name).erase "stack_info"

/-- What is printed for facts. -/
def printed (log : Logging) (setup : Setup) (facts : Facts) : Except Failure (List String) :=
  if setup.forMachines then .ok [jsonLine log.spaced facts] else plainLines facts

/-- Logs an event on a level that passes. The lines are made whether or not the floor lets them be
printed. -/
def report (setup : Setup) (logger : String) (level : Level) (event : Datum)
    (details : OrderedMap Datum) : Operation String Logging Unit := do
  if let some fault := Method.handingFault? details.names then
    Operation.fail (.arguments fault)
  let log ← Operation.look
  let lines ← Operation.ofExcept do
    log.printed setup (← log.facts setup logger level event details)
  if log.floor.getD 0 ≤ level.rank then
    Operation.signAll lines

/-- Asks a logger for a method with an event and details. -/
def ask (setup : Setup) (logger : Datum) (method : Method) (event : Datum)
    (details : List (String × Datum)) : Operation String Logging Unit := do
  if let .kept type := method then
    Operation.fail (.notAnswering type)
  if let some fault := method.fault? (passes setup) (details.map Prod.fst) then
    Operation.fail (.arguments fault)
  let logger ← Operation.ofExcept (loggerName logger)
  let known := OrderedMap.ofList details
  match method with
  | .report level => if passes setup level then report setup logger level event known
  | .reportFailure =>
    if passes setup .error then
      report setup logger .error event (known.putNew exceptionFlag (.bool true))
  | .reportOn =>
    if let some level ← Operation.ofExcept (levelAt setup.threshold event) then
      let event := (known.get? Method.eventName).getD .null
      report setup logger level event (known.erase Method.eventName)
  | .passing =>
    if (event.isBelow? setup.threshold).isNone then
      Operation.fail (.notComparable ">=" event.typeName)
  | .without =>
    match event.changeable? with
    | some type => Operation.fail (.changeable type)
    | none => Operation.fail (.notFound event.shown)
  | .promise _ | .promiseFailure | .promiseOn | .threshold | .withDetails | .withOnly
  | .withoutAny | .kept _ => pure ()

end Logging

end StagedColumns.Log
