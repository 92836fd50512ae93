import StagedColumns.Failure
import StagedColumns.Log.Event
import StagedColumns.Log.Json
import StagedColumns.Log.Spacing
import StagedColumns.Text.Split

/-!
# Log lines

An event is printed for machines as one JSON object that holds everything that is known about it,
and for people as one line with its time, level, text and logger in front and the details after
them, in the order of their names. Three of the details are for what went wrong: they stand below
that line. What people get has no colours and no two spaces in a row, and where a text in it has
several lines, it has them too.
-/

set_option autoImplicit false

namespace StagedColumns.Log

/-- What is known about an event when its line is made, by name. -/
abbrev Facts := OrderedMap Datum

/-- The names that the JSON lines give to the time and the level. -/
def withStandardNames (facts : Facts) : Facts :=
  (facts.rename "timestamp" "@timestamp").rename "level" "log.level"

/-- The facts with the service that they come from, unless they name one. -/
def withService (service : Datum) (facts : Facts) : Facts :=
  facts.putNew "service.name" service

/-- The line for machines, with single spaces if they are wanted. -/
def jsonLine (spaced : Bool) (facts : Facts) : String :=
  let known := Datum.record (withStandardNames facts).entries
  json (if spaced then narrow known else known)

/-! ### Details -/

/-- The character makes a detail unreadable unless it is quoted. -/
def needsQuotes (c : Char) : Bool :=
  [' ', '\t', '=', '\r', '\n', '"', '\''].contains c

/-- The value of a detail in a line for people. -/
def detailText : Datum → String
  | .text s => if s.toList.any needsQuotes then Text.quoted s else s
  | other => other.shown

/-- The text of a detail. -/
def detail (name : String) (value : Datum) : String :=
  name ++ "=" ++ detailText value

/-! ### The facts in front and below -/

/-- The names of the facts that stand in front of the details. A detail without a name stands in
front of them all. -/
def leadingNames : List String :=
  ["", "timestamp", "level", "event", "logger", "logger_name"]

/-- The text of one of the facts in front. -/
def leadingText (name : String) (value : Datum) : String :=
  if name = "" then detail name value
  else if name = "level" then "[" ++ value.plain ++ " ]"
  else if name = "logger" ∨ name = "logger_name" then "[" ++ value.plain ++ "]"
  else value.plain

/-- The name of the fact that tells how the program got to the event. -/
def stackName : String :=
  "stack"

/-- The name of the fact that tells what went wrong. -/
def exceptionName : String :=
  "exception"

/-- The name of the fact that says that something is known of what went wrong. -/
def exceptionFlag : String :=
  "exc_info"

/-- The names of the facts that are no details of the line. -/
def outerNames : List String :=
  leadingNames ++ [stackName, exceptionName, exceptionFlag]

/-- The details in the order of their names. -/
def details (facts : Facts) : List (String × Datum) :=
  (facts.entries.filter fun entry ↦ !outerNames.contains entry.1).mergeSort
    fun a b ↦ a.1 ≤ b.1

/-- What separates the two texts below the line. -/
def ruler : String :=
  "\n\n" ++ String.ofList (List.replicate 79 '=') ++ "\n"

/-- The value as a text on a line of its own, if there is a value. -/
def below : Datum → Except Failure String
  | .null => .ok ""
  | .text s => .ok ("\n" ++ s)
  | other => .error (.notAppendable other.typeName)

/-- The texts below the line. A ruler follows the first one where something went wrong. -/
def annex (facts : Facts) : Except Failure String := do
  let fact (name : String) : Datum := (facts.get? name).getD .null
  let stack ← below (fact stackName)
  let exception ← below (fact exceptionName)
  let ruled := stack != "" && (exception != "" || (fact exceptionFlag).truthy)
  return stack ++ (if ruled then ruler else "") ++ exception

/-! ### Lines for people -/

/-- The character can stand inside a colour sequence. -/
def isColourPart (c : Char) : Bool :=
  c.isDigit || c == ';'

/-- The length of the colour sequence at the beginning of the characters; zero if there is none. -/
def colourLength : List Char → Nat
  | '\x1b' :: '[' :: rest =>
    let parts := rest.takeWhile isColourPart
    if (rest.drop parts.length).head? = some 'm' then parts.length + 3 else 0
  | _ => 0

/-- The characters without the next ones, as many as are `skipped`, and without colour sequences. -/
def withoutColours (skipped : Nat) : List Char → List Char
  | [] => []
  | c :: rest =>
    match skipped, colourLength (c :: rest) with
    | more + 1, _ | 0, more + 1 => withoutColours more rest
    | 0, 0 => c :: withoutColours 0 rest

/-- The text for people, in one piece. -/
def plainText (facts : Facts) : Except Failure String := do
  let leading := leadingNames.filterMap fun name ↦ (facts.get? name).map (leadingText name)
  let parts := leading ++ (details facts).map fun entry ↦ detail entry.1 entry.2
  return " ".intercalate parts ++ (← annex facts)

/-- The lines for people. -/
def plainLines (facts : Facts) : Except Failure (List String) := do
  let characters := singleSpaces (withoutColours 0 (← plainText facts).toList)
  return (Text.splitOn '\n' characters).map String.ofList

end StagedColumns.Log
