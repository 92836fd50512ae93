import StagedColumns.Datum.Equality
import StagedColumns.Log.Event
import StagedColumns.Signature

/-!
# Methods of loggers

What a logger can be asked for by the name of a method, with an event by its place and details by
their names. Most methods report the event on a level of theirs. Some only promise to report it,
and since nobody waits for that nothing is reported. Others give loggers that know other details,
or tell which levels pass; they report nothing. A detail cannot go by a name that a method has for
something else.
-/

set_option autoImplicit false

namespace StagedColumns.Log

/-- What a logger is asked for. -/
inductive Method
  | report (level : Level)
  /-- To report what went wrong. -/
  | reportFailure
  /-- To report on the level that comes by its place, the event coming by its name. -/
  | reportOn
  | promise (level : Level)
  /-- To promise to report what went wrong. -/
  | promiseFailure
  /-- To promise to report on the level that comes by its place. -/
  | promiseOn
  /-- Whether the level that comes by its place passes. -/
  | passing
  /-- The level from which on events pass. -/
  | threshold
  /-- A logger that knows further details. -/
  | withDetails
  /-- A logger that knows other details only. -/
  | withOnly
  /-- A logger that does not know a detail any more. -/
  | without
  /-- The same, if it knows the detail. -/
  | withoutAny
  /-- Something of the type, which the logger keeps for itself and which answers nothing. -/
  | kept (type : String)
deriving DecidableEq

namespace Method

/-- The names of methods that report on a level. -/
def levels : List (String × Level) :=
  [("debug", .debug), ("info", .info), ("msg", .info), ("warning", .warning), ("warn", .warning),
    ("error", .error), ("critical", .critical), ("fatal", .critical)]

/-- The names of the other methods. -/
def others : List (String × Method) :=
  [("exception", .reportFailure), ("log", .reportOn), ("aexception", .promiseFailure),
    ("alog", .promiseOn), ("is_enabled_for", .passing), ("get_effective_level", .threshold),
    ("bind", .withDetails), ("new", .withOnly), ("unbind", .without), ("try_unbind", .withoutAny)]

/-- What a logger keeps for itself by name, with the types. -/
def keptTypes : List (String × String) :=
  [("_cache_logger_on_first_use", "NoneType"), ("_context", "dict"), ("_context_class", "NoneType"),
    ("_initial_values", "dict"), ("_logger", "NoneType"), ("_logger_factory_args", "tuple"),
    ("_processors", "NoneType"), ("_wrapper_class", "NoneType")]

/-- The method of a name. A promise has the name of what is promised after an `a`. -/
def ofName? (name : String) : Option Method :=
  (levels.map fun entry ↦ (entry.1, report entry.2)) ++
    (levels.map fun entry ↦ ("a" ++ entry.1, promise entry.2)) ++ others ++
    (keptTypes.map fun entry ↦ (entry.1, kept entry.2)) |>.lookup name

/-- The name of a method as refusals give it, which is another one if its level does not pass. -/
def callee (passes : Level → Bool) : Method → String
  | report level =>
    if passes level then "_make_filtering_bound_logger.<locals>.make_method.<locals>.meth"
    else "_nop"
  | promise level =>
    if passes level then "_make_filtering_bound_logger.<locals>.make_method.<locals>.ameth"
    else "_anop"
  | reportFailure => "exception"
  | promiseFailure => "aexception"
  | reportOn => "_make_filtering_bound_logger.<locals>.log"
  | promiseOn => "_make_filtering_bound_logger.<locals>.alog"
  | passing | threshold => "_make_filtering_bound_logger.<locals>.<lambda>"
  | withDetails => "BoundLoggerLazyProxy.bind"
  | withOnly => "BoundLoggerLazyProxy.new"
  | without => "BoundLoggerLazyProxy.unbind"
  | withoutAny => "BoundLoggerLazyProxy.try_unbind"
  | kept type => type

/-- The name of the event. -/
def eventName : String :=
  "event"

/-- The names of what a method gets by its place. -/
def placedNames : Method → List String
  | report _ | reportFailure | promise _ | promiseFailure => [Signature.receiver, eventName]
  | reportOn | promiseOn | passing => [Signature.receiver, "level"]
  | withDetails | withOnly | without | withoutAny | threshold => [Signature.receiver]
  | kept _ => []

/-- The method cannot be found without the logger, which is not made for the other ones. -/
def needsLogger : Method → Bool
  | withDetails | withOnly | without | withoutAny | kept _ => false
  | _ => true

/-- The method takes details. -/
def takesDetails : Method → Bool
  | without | withoutAny | passing | threshold => false
  | _ => true

/-- Why a method does not take details under the names, or the event besides them. -/
def fault? (passes : Level → Bool) (method : Method) (names : List String) :
    Option ArgumentFault :=
  let callee := method.callee passes
  let refused (name : String) : Bool := method.placedNames.contains name || !method.takesDetails
  match names.find? refused, method with
  | some name, _ =>
    if method.placedNames.contains name then some (.repeated callee name)
    else some (.unexpected callee name)
  | none, withDetails | none, withOnly | none, threshold => some (.tooMany callee 1 1 2 0)
  | none, reportOn | none, promiseOn =>
    if names.contains eventName then none else some (.missing callee [eventName])
  | none, _ => none

/-- The name of what is handed on with an event that is reported. -/
def handedOnName : String :=
  "method_name"

/-- Why an event is not handed on with details under the names. -/
def handingFault? (names : List String) : Option ArgumentFault :=
  if names.contains handedOnName then
    some (.repeated "BoundLoggerBase._proxy_to_logger" handedOnName)
  else none

end Method

/-- The level that a number is the height of, for numbers that are not below a threshold. -/
def levelAt (threshold : Nat) (height : Datum) : Except Failure (Option Level) :=
  match height.isBelow? threshold with
  | none => .error (.notComparable "<" height.typeName)
  | some true => .ok none
  | some false =>
    match [Level.debug, .info, .warning, .error, .critical].find? fun level ↦
        height.integer? = some (level.rank : Int) with
    | some level => .ok (some level)
    | none => .error (.notFound height.shown)

end StagedColumns.Log
