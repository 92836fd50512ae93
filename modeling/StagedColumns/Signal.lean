import StagedColumns.Log.Event
import StagedColumns.Operation

/-!
# Signals

The signs that an operation gives: what it asks of its collaborators, the warnings that a deprecated
column is in use, and the events that it logs, all in the order in which they happen.
-/

set_option autoImplicit false

namespace StagedColumns

/-- What an operation asks of a collaborator. -/
inductive Call
  /-- The roster of actors of a domain is asked for. -/
  | roster (domain : String)
  /-- A roster is asked for the actor of a user's name. -/
  | find (domain name : String)
  /-- A roster is asked for the actor of a user's name, and to enter one if there is none. -/
  | acquire (domain name : String)
  /-- A connection is asked to execute a statement. -/
  | execute (connection sql : String) (parameters : List Datum)
  | commit (connection : String)
  | rollback (connection : String)

/-- A sign of what an operation does. -/
inductive Signal
  | call (c : Call)
  /-- A warning that something deprecated is in use. -/
  | deprecation (text : String)
  | event (e : Event)

namespace Signal

/-- The call that the signal is. -/
def call? : Signal → Option Call
  | call c => some c
  | _ => none

/-- The text of the warning that the signal is. -/
def deprecation? : Signal → Option String
  | deprecation text => some text
  | _ => none

/-- The event that the signal is. -/
def event? : Signal → Option Event
  | event e => some e
  | _ => none

end Signal

/-- The operation that logs an event. -/
def Operation.report {ω : Type} (name : String) (level : Level)
    (details : List (String × Datum)) : Operation Signal ω Unit :=
  sign (.event (.of name level details))

end StagedColumns
