import StagedColumns.Planner.Read
import StagedColumns.Proofs.Query.Database

/-!
# Storage that is a database

A storage whose state is nothing but the tables of a database. Its rosters are the actor table, and
every connection reaches the same tables. Users of one name are one actor.
-/

set_option autoImplicit false

namespace StagedColumns

namespace Database

/-- The actor id that the actor table has for a user. -/
def actorOf? (db : Database) (user : User) : Option Int :=
  ((db.rows Planner.actorTable).find? (hasIn "actor_name" (.text user.name))).bind fun row ↦
    (cell row "actor_id").integer?

/-- The actor id of a new actor: one more than the highest one. -/
def nextActor (db : Database) : Int :=
  ((db.rows Planner.actorTable).filterMap fun row ↦ (cell row "actor_id").integer?).foldl max 0 + 1

/-- The row of the actor table for a user. -/
def actorRow (user : User) (actor : Int) : Row :=
  OrderedMap.ofList [("actor_id", .int actor),
    ("actor_user", if user.id = 0 then .null else .int user.id), ("actor_name", .text user.name)]

/-- Gives the actor id of a user, with a new row of the actor table if need be. -/
def acquire (db : Database) (user : User) : Int × Database :=
  match db.actorOf? user with
  | some actor => (actor, db)
  | none => (db.nextActor, db.insert Planner.actorTable (actorRow user db.nextActor))

end Database

/-- The storage whose state is a database. Texts are not understood. -/
def Storage.ofDatabase : Storage Database where
  find _ user db := .ok (db.actorOf? user)
  acquire _ user db := (.ok (db.acquire user).1, (db.acquire user).2)
  execute _ d statement parameters db :=
    match statement with
    | .text sql => (.error ("not understood: " ++ sql), db)
    | .insert table columns =>
      let next := db.insert table (OrderedMap.ofList (columns.zip parameters))
      (.ok ⟨(next.rows table).length, [], []⟩, next)
    | .upsert table columns keys =>
      let next := db.upsert d table (OrderedMap.ofList (columns.zip parameters)) keys
      (.ok ⟨(next.rows table).length, [], []⟩, next)
  commit _ db := db
  rollback _ db := db

theorem ofList_zip (row : Row) : OrderedMap.ofList (row.names.zip row.values) = row := by
  rw [row.zip_names_values]
  exact row.empty_merge

theorem Handle.reaches_ofDatabase (h : Handle) (primary : String → List String) :
    h.Reaches Storage.ofDatabase (fun db ↦ db) primary where
  insert := by
    intro state table row _
    simp only [Storage.ofDatabase, ofList_zip]
    exact ⟨_, _, rfl, rfl⟩
  upsert := by
    intro state table row
    simp only [Storage.ofDatabase, ofList_zip]
    exact ⟨_, _, rfl, rfl⟩

end StagedColumns
