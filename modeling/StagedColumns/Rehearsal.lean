import StagedColumns.Storage

/-!
# Rehearsal storage

A storage without a database, for trying out what operations ask of their collaborators. Rosters are
kept in memory and number new actors upwards; connections answer queries from a script. Either can
be told what to refuse.
-/

set_option autoImplicit false

namespace StagedColumns

/-- The actor ids of a domain by user name. -/
abbrev Roster := OrderedMap Int

/-- The actor id of a new actor: one more than the highest one given out, or one if there is none.
-/
def Roster.nextActor (r : Roster) : Int :=
  match r.values with
  | [] => 1
  | first :: rest => rest.foldl max first + 1

/-- A connection that answers from a script. -/
structure Script where
  /-- Texts of which none may occur in a statement. -/
  refused : List String
  /-- The answers that are left, one for each statement. -/
  answers : List (List String × List (List Datum))
  /-- The number of statements executed. -/
  executed : Nat

/-- The state of a rehearsal. -/
structure Rehearsal where
  rosters : OrderedMap Roster
  /-- The names of users that no roster answers for. -/
  refusedUsers : List String
  connections : OrderedMap Script

namespace Rehearsal

/-- The roster of a domain. -/
def roster (r : Rehearsal) (domain : String) : Roster :=
  (r.rosters.get? domain).getD .empty

/-- How a roster refuses to answer for a user. -/
def refuseUser (user : User) : String :=
  "store failed: " ++ user.name

/-- The actor id of a user in a domain. -/
def find (domain : String) (user : User) (r : Rehearsal) : Except String (Option Int) :=
  if r.refusedUsers.contains user.name then .error (refuseUser user)
  else .ok ((r.roster domain).get? user.name)

/-- The actor id of a user in a domain, a new one if there is none. -/
def acquire (domain : String) (user : User) (r : Rehearsal) : Except String Int × Rehearsal :=
  if r.refusedUsers.contains user.name then (.error (refuseUser user), r)
  else
    let known := r.roster domain
    match known.get? user.name with
    | some actor => (.ok actor, r)
    | none =>
      let actor := known.nextActor
      (.ok actor, { r with rosters := r.rosters.put domain (known.put user.name actor) })

/-- The connection of a name. -/
def connection (r : Rehearsal) (name : String) : Script :=
  (r.connections.get? name).getD ⟨[], [], 0⟩

/-- Executes a statement: it is refused for the first refused text that occurs in it, and otherwise
gets the next answer of the script. -/
def execute (name : String) (d : Dialect) (statement : Statement) (_ : List Datum)
    (r : Rehearsal) : Except String Cursor × Rehearsal :=
  let script := r.connection name
  match script.refused.find? fun text ↦ Text.occursIn text (d.render statement) with
  | some text => (.error ("conn failed: " ++ text), r)
  | none =>
    let (columns, rows) := script.answers.head?.getD ([], [])
    let executed := script.executed + 1
    (.ok ⟨executed, columns, rows⟩,
      { r with
        connections := r.connections.put name ⟨script.refused, script.answers.tail, executed⟩ })

end Rehearsal

/-- The storage of a rehearsal. Nothing is undone, and nothing needs to be made to last. -/
def Storage.rehearsal : Storage Rehearsal where
  find := Rehearsal.find
  acquire := Rehearsal.acquire
  execute := Rehearsal.execute
  commit _ r := r
  rollback _ r := r

end StagedColumns
