import StagedColumns.Deployment
import StagedColumns.Planner.Session

/-!
# The fields of the core tables

The user fields of the core tables. The actor ids of revisions are kept in a temp table, so that the
rows that are there already need no new column. Every core field is listed, so a planner for them
allows no other key; other tables are planned for with fields of their own.
-/

set_option autoImplicit false

namespace StagedColumns

/-- The temp table of revisions. -/
def revisionActors : TempTable :=
  ⟨"revision_actor_temp", "revactor_rev", "revactor_actor", "rev_id",
    OrderedMap.ofList [("revactor_timestamp", "rev_timestamp"), ("revactor_page", "rev_page")]⟩

/-- The user fields of the core tables. -/
def coreFields : OrderedMap UserField :=
  OrderedMap.ofList
    [("rev_user", { UserField.plain with tempTable := some revisionActors }),
      ("ar_user", .plain), ("img_user", .plain), ("oi_user", .plain), ("fa_user", .plain),
      ("rc_user", .plain), ("log_user", .plain), ("us_user", .plain),
      ("ipb_by",
        { UserField.plain with
          textColumn := some "ipb_by_text"
          actorColumn := some "ipb_by_actor" })]

/-- The core fields as raw configuration. -/
def coreRecord : RawRecord :=
  coreFields.entries.map fun entry ↦ (entry.1, Datum.field entry.2)

/-- The component that the core fields belong to. -/
def coreComponent : String :=
  "core"

namespace Planner

variable {ω : Type}

/-- The name of a planner for fields that are given to it. -/
def generalName : String :=
  "ActorMigrationEngine"

/-- The name of the planner for the core fields. -/
def coreName : String :=
  "ActorMigration"

/-- The planner for the core fields, or for other fields in their place. It cannot be told how to
treat other keys. -/
def configureCore (stage : Datum) (fields : Option RawRecord) (othersAllowed : Option Bool)
    (component : String) : Operation Signal ω Planner := do
  if othersAllowed.isSome then
    Operation.fail (.arguments (.unexpected "ActorMigration.__init__" "allow_unknown"))
  configure coreName stage (fields.getD coreRecord) false component

/-- The planner of a name for a deployment. -/
def deploy (name : String) (fields : RawRecord) (d : Deployment) : Operation Signal ω Planner := do
  let stage ← Operation.ofExcept d.stage
  configure name (.stage stage) fields d.othersAllowed d.component

/-- The planner for the core fields for a deployment. -/
def deployCore (d : Deployment) : Operation Signal ω Planner := do
  let stage ← Operation.ofExcept d.stage
  configureCore (.stage stage) none none d.component

end Planner

end StagedColumns
