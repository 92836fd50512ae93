import StagedColumns.Signal
import StagedColumns.Sql.Statement
import StagedColumns.User

/-!
# Storage

What the library needs of its collaborators: for each storage domain a roster of actors, and
connections that execute statements. Their state is not known here; all that is fixed is that a
roster that is only asked does not change it. Every request is a call in the trace, whether it is
granted or refused.
-/

set_option autoImplicit false

namespace StagedColumns

/-- What the execution of a statement gives. -/
structure Cursor where
  /-- The key of the row that was inserted last. -/
  lastRow : Int
  columns : List String
  rows : List (List Datum)

/-- The collaborators, with states in `ω`. A refusal is a text. -/
structure Storage (ω : Type) where
  /-- The actor id of a user in a domain. -/
  find : String → User → ω → Except String (Option Int)
  /-- The actor id of a user in a domain, who is entered into the roster if need be. -/
  acquire : String → User → ω → Except String Int × ω
  /-- Executes a statement with its parameters on the named connection. -/
  execute : String → Dialect → Statement → List Datum → ω → Except String Cursor × ω
  /-- Makes what was executed on the named connection last. -/
  commit : String → ω → ω
  /-- Undoes what was executed on the named connection. -/
  rollback : String → ω → ω

namespace Storage

variable {ω : Type}

/-- Asks for the roster of a domain. -/
def askRoster (domain : String) : Operation Signal ω Unit :=
  Operation.sign (.call (.roster domain))

/-- Looks for the actor id of a user. -/
def findActor (storage : Storage ω) (domain : String) (user : User) :
    Operation Signal ω (Option Int) :=
  fun state ↦
    ⟨(storage.find domain user state).mapError .collaborator, state,
      [.call (.find domain user.name)]⟩

/-- Gets the actor id of a user, entering the user into the roster if need be. -/
def acquireActor (storage : Storage ω) (domain : String) (user : User) : Operation Signal ω Int :=
  fun state ↦
    let answer := storage.acquire domain user state
    ⟨answer.1.mapError .collaborator, answer.2, [.call (.acquire domain user.name)]⟩

end Storage

/-- What callers hand to an operation that reaches out to storage: a connection, the dialect it
speaks, and the domain it belongs to. -/
structure Handle where
  connection : String
  dialect : Dialect
  domain : String
deriving DecidableEq

namespace Handle

variable {ω : Type}

/-- The dialect of a handle for which none is chosen. -/
def defaultDialect : Dialect :=
  .sqlite

/-- The domain of a handle for which none is chosen. -/
def defaultDomain : String :=
  "local"

/-- The handle as messages show it. -/
def shown (h : Handle) : String :=
  "Database(dialect=" ++ Text.quoted h.dialect.name ++ ", domain_id=" ++ Text.quoted h.domain ++ ")"

/-- Executes a statement. -/
def execute (h : Handle) (storage : Storage ω) (statement : Statement) (parameters : List Datum) :
    Operation Signal ω Cursor :=
  fun state ↦
    let answer := storage.execute h.connection h.dialect statement parameters state
    ⟨answer.1.mapError .collaborator, answer.2,
      [.call (.execute h.connection (h.dialect.render statement) parameters)]⟩

/-- Executes a statement given as a text. Its parameters are the items of a value. -/
def executeText (h : Handle) (storage : Storage ω) (sql : String) (parameters : Datum) :
    Operation Signal ω Cursor := do
  h.execute storage (.text sql) (← Operation.ofExcept parameters.items)

/-- The rows that a query gives, column by column. -/
def query (h : Handle) (storage : Storage ω) (sql : String) (parameters : Datum) :
    Operation Signal ω (List Row) := do
  let cursor ← h.executeText storage sql parameters
  return cursor.rows.map fun row ↦ OrderedMap.ofList (cursor.columns.zip row)

/-- The first row that a query gives. -/
def queryFirst (h : Handle) (storage : Storage ω) (sql : String) (parameters : Datum) :
    Operation Signal ω (Option Row) := do
  return (← h.query storage sql parameters).head?

/-- Inserts a row and gives its key. -/
def insert (h : Handle) (storage : Storage ω) (table : String) (row : Row) :
    Operation Signal ω Int := do
  return (← h.execute storage (.insert table row.names) row.values).lastRow

/-- Inserts a row, or where there is one with the same key gives it the new values. If that is
refused the refusal is logged and reported as a failure of the storage. -/
def upsert (h : Handle) (storage : Storage ω) (table : String) (row : Row) (keys : List String) :
    Operation Signal ω Unit :=
  Operation.orElseWith
    (fun cause ↦ do
      Operation.report "upsert_failed" .error
        [("table", table), ("key_columns", .list (keys.map Datum.text)), ("error", cause.message)]
      Operation.fail (.upsertFailed table cause))
    (do let _ ← h.execute storage (.upsert table row.names keys) row.values)

/-- Makes what was executed last. -/
def commit (h : Handle) (storage : Storage ω) : Operation Signal ω Unit :=
  fun state ↦ ⟨.ok (), storage.commit h.connection state, [.call (.commit h.connection)]⟩

/-- Undoes what was executed. -/
def rollback (h : Handle) (storage : Storage ω) : Operation Signal ω Unit :=
  fun state ↦ ⟨.ok (), storage.rollback h.connection state, [.call (.rollback h.connection)]⟩

end Handle

end StagedColumns
