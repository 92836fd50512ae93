import StagedColumns.Datum.Written
import StagedColumns.Failure.Argument
import StagedColumns.Stage.Reader

/-!
# Why an operation fails

Every failure is named by its cause. The failures that the library itself reports have a kind, which
callers can tell apart without reading messages: broken configuration, broken calling code, a
removed field, a broken database. Since callers may report such failures of their own, about
anything, what they are about is given as values. The other failures are refusals of values that
have no place in the library's terms, and what a collaborator reports.
-/

set_option autoImplicit false

namespace StagedColumns

/-- The rule that a part of a configuration breaks. -/
inductive Rule
  /-- A required name is absent. -/
  | missing
  | notText
  /-- Bytes that are no text. -/
  | badEncoding
  | tooShort
  | notRecord
  /-- Neither absent nor a description of a temp table. -/
  | notTempTable
  /-- A name that is not known, or a second spelling of one that is. -/
  | forbidden
  | notChoice
  /-- A text or a number that stands for no truth value. -/
  | unreadableBool
  | notBool
  /-- Something that is settled once and for all was to be given another value. -/
  | settled
deriving DecidableEq

/-- A part of a configuration that breaks a rule, with the names that lead to it. -/
structure Issue where
  location : List String
  rule : Rule
deriving DecidableEq

/-- The cause of a failure. -/
inductive Failure
  | stage (fault : StageFault)
  /-- A field's configuration is not a mapping. -/
  | fieldNotRecord (key type : String)
  | fieldInvalid (key : String) (issues : List Issue)
  /-- The key is not configured, and only configured keys are allowed. -/
  | unknownKey (key owner : Datum)
  | fieldRemoved (key version component owner : Datum)
  /-- The write does not fit the field; the other one does. -/
  | wrongWrite (key expected : Datum)
  | invalidUsers (operation : Datum) (type : String)
  | missingValue (key column : Datum)
  | noConditions
  | emptyValues (column : String)
  | needsTempTable (action : String)
  | needsActor
  | needsPrimaryKey (key : String)
  | upsertFailed (table : Datum) (cause : Failure)
  /-- A value that was to be read by its description does not fit it. -/
  | invalid (issues : List Issue)
  | invalidUserId (shown : String)
  | invalidUserName
  | unknownChoice (shown choice : String)
  | unknownDialect (name : String) (supported : List String)
  /-- The value has no SQL literal. -/
  | noLiteral (type : String)
  | notIterable (type : String)
  /-- The value cannot be gone through to join its items. -/
  | nothingToJoin
  /-- Of items that are to be joined, one is no text. -/
  | itemNotText (place : Nat) (type : String)
  | noLength (type : String)
  /-- A value of the type cannot be asked what it holds. -/
  | holdsNothing (type : String)
  /-- A text was asked whether it holds something that is no text. -/
  | notWithinText (type : String)
  /-- Bytes were asked whether they hold something that is neither a number nor bytes. -/
  | notWithinBytes (type : String)
  /-- Bytes were asked whether they hold a number that is no byte. -/
  | noByte
  /-- A value of the type has no value under a name. -/
  | noValueUnderName (type : String)
  /-- A value of the type has no parts that can be taken. -/
  | noParts (type : String)
  /-- The parts of a value of the type cannot be replaced. -/
  | fixedParts (type : String)
  | noAttribute (type name : String)
  /-- The value cannot be compared by what it holds. -/
  | changeable (type : String)
  /-- An item that should be a pair of a name and a value has no items. -/
  | itemNotPair (place : Nat)
  /-- An item that should be a pair of a name and a value has another length. -/
  | itemNotPairLength (place length : Nat)
  | notNumber (type : String)
  | arguments (fault : ArgumentFault)
  /-- What a value of one type has under a name cannot be another value. -/
  | readOnly (type name : String)
  /-- The same of something that a value of the type keeps for itself. -/
  | notWritable (type name : String)
  /-- The same of a value that never changes. -/
  | settledName (name : String)
  /-- A value of the type was to be the type of another value. -/
  | notType (type : String)
  /-- A value of the type was to be all that another value has. -/
  | notPlaces (type : String)
  /-- A value of the type stands under a name that something was asked for by. -/
  | notAnswering (type : String)
  /-- A value that is no failure was to stand behind a failure. -/
  | noCause
  | unknownLevel (name : String)
  /-- Nothing is found for the value that is shown so. -/
  | notFound (shown : String)
  /-- A value of the type does not stand in a relation of order to a number. -/
  | notComparable (relation type : String)
  /-- A scope was to be left, and none is open. -/
  | noOpenScope
  /-- Something was asked for by a name that is a value of the type, not a text. -/
  | nameNotText (type : String)
  /-- A logger has a name that is no text. -/
  | loggerNotText
  /-- A value of the type was to be appended to a log line. -/
  | notAppendable (type : String)
  /-- A value was to be written, and cannot be. -/
  | unwritable (fault : Datum.WritingFault)
  /-- What a collaborator reports. -/
  | collaborator (message : String)

namespace Failure

/-- What the failure says. -/
def message : Failure → String
  | stage fault => fault.message
  | fieldNotRecord key type =>
    "Field info for " ++ Text.quoted key ++ " must be a mapping, got " ++ type
  | fieldInvalid key _ => "Invalid field info for " ++ Text.quoted key
  | unknownKey key owner => owner.plain ++ ": unknown key " ++ key.plain
  | fieldRemoved key version component owner =>
    "Use of " ++ owner.plain ++ " for '" ++ key.plain ++ "' was removed in " ++ component.plain ++
      " " ++ version.plain
  | wrongWrite key expected => "Must use " ++ expected.plain ++ "() for " ++ key.plain
  | invalidUsers operation type =>
    operation.plain ++ ": value for users must be a UserIdentity or a collection of them, got " ++
      type
  | missingValue key column =>
    "Deferred write for " ++ key.plain ++ ": extras[" ++ column.shown ++ "] is not provided"
  | noConditions => "make_list() needs at least one condition"
  | emptyValues column => "Empty value list for " ++ column
  | needsTempTable action => action ++ " deferred write needs a temp table"
  | needsActor => "upsert deferred write needs an actor id and a database handle"
  | needsPrimaryKey key => "Deferred write for " ++ key ++ " needs the main row's primary key"
  | upsertFailed table _ => "Upsert into " ++ table.plain ++ " failed"
  | invalid _ => ""
  | invalidUserId shown => "User id must be a non-negative integer, got " ++ shown
  | invalidUserName => "User name must be a non-empty string"
  | unknownChoice shown choice => shown ++ " is not a valid " ++ choice
  | unknownDialect name supported =>
    "Unknown dialect '" ++ name ++ "'. Supported: " ++
      Datum.bracketed "[" "]" (supported.map Text.quoted)
  | noLiteral type => "Cannot render " ++ type ++ " as a SQL literal"
  | notIterable type => "'" ++ type ++ "' object is not iterable"
  | nothingToJoin => "can only join an iterable"
  | itemNotText place type =>
    "sequence item " ++ toString place ++ ": expected str instance, " ++ type ++ " found"
  | noLength type => "object of type '" ++ type ++ "' has no len()"
  | holdsNothing type => "argument of type '" ++ type ++ "' is not iterable"
  | notWithinText type => "'in <string>' requires string as left operand, not " ++ type
  | notWithinBytes type => "a bytes-like object is required, not '" ++ type ++ "'"
  | noByte => "byte must be in range(0, 256)"
  | noValueUnderName type =>
    if type = "str" then "string indices must be integers, not 'str'"
    else type ++ " indices must be integers or slices, not str"
  | noParts type => "'" ++ type ++ "' object is not subscriptable"
  | fixedParts type => "'" ++ type ++ "' object does not support item assignment"
  | noAttribute type name => "'" ++ type ++ "' object has no attribute '" ++ name ++ "'"
  | changeable type => "unhashable type: '" ++ type ++ "'"
  | itemNotPair place =>
    "cannot convert dictionary update sequence element #" ++ toString place ++ " to a sequence"
  | itemNotPairLength place length =>
    "dictionary update sequence element #" ++ toString place ++ " has length " ++
      toString length ++ "; 2 is required"
  | notNumber type => "'" ++ type ++ "' object cannot be interpreted as an integer"
  | arguments fault => fault.message
  | readOnly type name => "'" ++ type ++ "' object attribute '" ++ name ++ "' is read-only"
  | notWritable type name =>
    "attribute '" ++ name ++ "' of '" ++ type ++ "' objects is not writable"
  | settledName name => "cannot assign to field " ++ Text.quoted name
  | notType type => "__class__ must be set to a class, not '" ++ type ++ "' object"
  | notPlaces type => "__dict__ must be set to a dictionary, not a '" ++ type ++ "'"
  | notAnswering type => "'" ++ type ++ "' object is not callable"
  | noCause => "exception cause must be None or derive from BaseException"
  | unknownLevel name => "module 'logging' has no attribute '" ++ name ++ "'"
  | notFound shown => shown
  | notComparable relation type =>
    "'" ++ relation ++ "' not supported between instances of '" ++ type ++ "' and 'int'"
  | noOpenScope => "pop from empty list"
  | nameNotText type => "attribute name must be string, not '" ++ type ++ "'"
  | loggerNotText => "A logger name must be a string"
  | notAppendable type => "can only concatenate str (not \"" ++ type ++ "\") to str"
  | unwritable fault => fault.message
  | collaborator message => message

end Failure

end StagedColumns
