import StagedColumns.Address
import StagedColumns.Planner.Read
import StagedColumns.Sql.Condition
import StagedColumns.Storage

/-!
# Searching by users

The rows whose field refers to one of several users are found, in the old representation, by the ids
of the registered users and the canonical names of the others; in the new one by the actor ids of
those users who have one. If nothing is left to search by, the search finds nothing.
-/

set_option autoImplicit false

namespace StagedColumns.Planner

variable {ω : Type}

/-- The actor ids of users, without those who have none. An id of zero counts as none. -/
def findActors (storage : Storage ω) (domain : String) :
    List User → Operation Signal ω (List Int)
  | [] => pure []
  | user :: rest => do
    let found ← storage.findActor domain user
    let others ← findActors storage domain rest
    match found with
    | some actor => return if actor = 0 then others else actor :: others
    | none => return others

/-- The condition that a column has one of the values, under a name; none, if there are no values.
-/
def alternative (d : Dialect) (name column : String) (values : List Datum) :
    Except Failure (List (String × String)) :=
  match values with
  | [] => .ok []
  | values => do return [(name, ← d.testColumn column (.list values))]

/-- The user is searched for by id: registered, where searching by id is asked for. -/
def byId (includeIds : Bool) (user : User) : Bool :=
  includeIds && user.isRegistered

/-- The alternatives of a search in the old representation: by the ids of some users, and by the
canonical names of the others. -/
def oldAlternatives (d : Dialect) (key textColumn : String) (includeIds : Bool)
    (users : List User) : Except Failure (List (String × String)) := do
  let ids := (users.filter (byId includeIds)).map fun user ↦ Datum.int user.id
  let names := (users.filter fun user ↦ !byId includeIds user).map fun user ↦
    Datum.text (canonicalName user.name)
  return (← alternative d "userid" key ids) ++ (← alternative d "username" textColumn names)

/-- The tables and alternatives of a search in the new representation, by the actor ids found. -/
def newAlternatives (d : Dialect) (key actorColumn : String) (tempTable : Option TempTable)
    (actors : List Int) : Except Failure (Tables × List (String × String)) :=
  match actors with
  | [] => .ok (.empty, [])
  | actors => do
    let (source, actorId) := actorSource key actorColumn tempTable
    return (source, ← alternative d "actor" actorId.render (actors.map Datum.int))

/-- The tables and alternatives of a search. -/
def alternatives (p : Planner) (storage : Storage ω) (handle : Handle) (key : String)
    (field : UserField) (users : List User) (includeIds : Bool) :
    Operation Signal ω (Tables × List (String × String)) :=
  let names := field.columnNames key
  match p.stage.reading with
  | .old => do
    let found ← Operation.ofExcept (oldAlternatives handle.dialect key names.text includeIds users)
    return (.empty, found)
  | .new =>
    if users.isEmpty then pure (.empty, [])
    else do
      Storage.askRoster handle.domain
      let actors ← findActors storage handle.domain users
      Operation.ofExcept (newAlternatives handle.dialect key names.actor field.tempTable actors)

/-- The condition that alternatives combine to. -/
def anyOf : List (String × String) → Except Failure String
  | [] => .ok impossible
  | alternatives => combine .or (alternatives.map Prod.snd)

/-- How the rows are searched for in which the field of the key refers to one of the users. Where
`includeIds` is false, registered users are searched for by name in the old representation. -/
def search (p : Planner) (storage : Storage ω) (handle : Handle) (key : String) (users : Datum)
    (includeIds : Bool) : Operation Signal ω Search := do
  let field ← p.table.pass key
  let users ← Operation.ofExcept (User.listOf users)
  let (source, found) ← p.alternatives storage handle key field users includeIds
  let condition ← Operation.ofExcept (anyOf found)
  Operation.report "where_built" .debug
    [("field", key), ("stage", p.stage.label), ("users", .int users.length),
      ("alternatives", .list (found.map fun entry ↦ .text entry.1))]
  return ⟨source, condition, OrderedMap.ofList found⟩

end StagedColumns.Planner
