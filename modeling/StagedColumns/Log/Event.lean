import StagedColumns.Datum

/-!
# Log events

What the library reports while it works: an event has a name, a level and details in order.
-/

set_option autoImplicit false

namespace StagedColumns

/-- How grave an event is. -/
inductive Level
  | debug
  | info
  | warning
  | error
  | critical
deriving DecidableEq

namespace Level

/-- The name of a level, as log lines have it. -/
def name : Level → String
  | debug => "debug"
  | info => "info"
  | warning => "warning"
  | error => "error"
  | critical => "critical"

/-- How high a level is. -/
def rank : Level → Nat
  | debug => 10
  | info => 20
  | warning => 30
  | error => 40
  | critical => 50

end Level

/-- An event with its details. -/
structure Event where
  name : String
  level : Level
  details : OrderedMap Datum

/-- An event with the details in the order of the list. -/
def Event.of (name : String) (level : Level) (details : List (String × Datum)) : Event :=
  ⟨name, level, OrderedMap.ofList details⟩

end StagedColumns
