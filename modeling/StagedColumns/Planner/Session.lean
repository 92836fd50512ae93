import StagedColumns.Planner.Search
import StagedColumns.Planner.Write

/-!
# Planners in use

A planner in use is asked one thing after the other. What changes meanwhile is the memo of its
readings and the world outside, and nothing else.
-/

set_option autoImplicit false

namespace StagedColumns

variable {ω α : Type}

/-- What changes while a planner is in use. -/
structure Session (ω : Type) where
  readings : Memo Reading
  outside : ω

namespace Session

/-- The session before anything was asked. -/
def start (outside : ω) : Session ω :=
  ⟨.empty, outside⟩

/-- An operation on the memo of readings. -/
def onReadings (op : Operation Signal (Memo Reading) α) : Operation Signal (Session ω) α :=
  op.onPart Session.readings fun readings s ↦ { s with readings := readings }

/-- An operation on the world outside. -/
def onOutside (op : Operation Signal ω α) : Operation Signal (Session ω) α :=
  op.onPart Session.outside fun outside s ↦ { s with outside := outside }

end Session

/-- What a planner can be asked. -/
inductive Request
  | read (key : String)
  | write (handle : Handle) (key : String) (user : User)
  | writeLinked (handle : Handle) (key : String) (user : User)
  | search (handle : Handle) (key : String) (users : Datum) (includeIds : Bool)

/-- What a planner answers. -/
inductive Plan
  | reading (r : Reading)
  | values (row : Row)
  | linked (row : Row) (pending : PendingWrite)
  | search (s : Search)

/-- The key that is asked about. -/
def Request.key : Request → String
  | read key | write _ key _ | writeLinked _ key _ | search _ key _ _ => key

namespace Planner

/-- Answers a request. -/
def answer (p : Planner) (storage : Storage ω) : Request → Operation Signal (Session ω) Plan
  | .read key => do return .reading (← Session.onReadings (p.read key))
  | .write handle key user => do
    return .values (← Session.onOutside (p.write storage handle key user))
  | .writeLinked handle key user => do
    let (row, pending) ← Session.onOutside (p.writeLinked storage handle key user)
    return .linked row pending
  | .search handle key users includeIds => do
    return .search (← Session.onOutside (p.search storage handle key users includeIds))

/-- Answers a request to write for a value, which has to be a user. -/
def answerWrite (p : Planner) (storage : Storage ω) (handle : Handle) (key : String)
    (linked : Bool) (user : Datum) : Operation Signal (Session ω) Plan :=
  match User.ofDatum? user, linked with
  | some user, false => p.answer storage (.write handle key user)
  | some user, true => p.answer storage (.writeLinked handle key user)
  | none, linked => Session.onOutside (p.refuseWrite handle key linked user)

end Planner

end StagedColumns
