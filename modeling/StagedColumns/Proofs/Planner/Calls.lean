import StagedColumns.Proofs.Memo
import StagedColumns.Proofs.Planner.History

/-!
# What is asked of collaborators

A request determines beforehand, by the stage alone, which collaborators are called for it and in
which order: reading calls none, a write that needs an actor id asks the roster of the handle's
domain to enter the user, and a search that looks for actor ids asks that roster for each user in
turn. An operation that succeeds makes all of these calls and no others; one that fails makes the
first of them (`Operation.Calls`). A pending write that is finished executes one statement, with the
handle that it keeps, or calls nothing at all.
-/

set_option autoImplicit false

namespace StagedColumns

variable {ω α β : Type}

/-- The calls among signs. -/
def callsIn (signs : List Signal) : List Call :=
  signs.filterMap Signal.call?

theorem callsIn_append (signs more : List Signal) :
    callsIn (signs ++ more) = callsIn signs ++ callsIn more :=
  List.filterMap_append

/-- All of the calls were made, in order, if there is a result, and otherwise the first of them. -/
structure Outcome.Makes (outcome : Outcome Signal ω α) (calls : List Call) : Prop where
  first : callsIn outcome.trace <+: calls
  all {value : α} : outcome.result = .ok value → callsIn outcome.trace = calls

namespace Operation

/-- Whatever the state, the operation makes the calls. -/
def Calls (op : Operation Signal ω α) (calls : List Call) : Prop :=
  ∀ state, (op state).Makes calls

theorem Calls.pure (value : α) : (Pure.pure value : Operation Signal ω α).Calls [] :=
  fun _ ↦ ⟨List.prefix_rfl, fun _ ↦ rfl⟩

/-- An operation that only fails may be said to make any calls. -/
theorem Calls.fail (failure : Failure) (calls : List Call) :
    (fail failure : Operation Signal ω α).Calls calls :=
  fun _ ↦ ⟨List.nil_prefix, nofun⟩

theorem Calls.ofExcept (computed : Except Failure α) :
    (ofExcept computed : Operation Signal ω α).Calls [] := by
  cases computed with
  | error failure => exact .fail failure []
  | ok value => exact .pure value

theorem Calls.call (c : Call) : (sign (.call c) : Operation Signal ω Unit).Calls [c] :=
  fun _ ↦ ⟨List.prefix_rfl, fun _ ↦ rfl⟩

theorem Calls.report (name : String) (level : Level) (details : List (String × Datum)) :
    (report name level details : Operation Signal ω Unit).Calls [] :=
  fun _ ↦ ⟨List.prefix_rfl, fun _ ↦ rfl⟩

theorem Calls.bind {op : Operation Signal ω α} {next : α → Operation Signal ω β}
    {calls more : List Call} (hop : op.Calls calls) (hnext : ∀ value, (next value).Calls more) :
    (op >>= next).Calls (calls ++ more) := by
  intro state
  have hfirst := hop state
  rcases hout : op state with ⟨result, later, trace⟩
  rw [hout] at hfirst
  cases result with
  | error failure =>
    rw [bind_of_error hout]
    exact ⟨hfirst.first.trans (List.prefix_append calls more), nofun⟩
  | ok value =>
    have hall : callsIn trace = calls := hfirst.all rfl
    have hsecond := hnext value later
    rw [bind_of_ok hout]
    constructor
    · rw [callsIn_append, hall]
      exact (List.prefix_append_right_inj calls).mpr hsecond.first
    · intro result hresult
      rw [callsIn_append, hall, hsecond.all hresult]

/-- What follows a computation may make calls that depend on what was computed. -/
theorem Calls.ofExcept_bind {computed : Except Failure α} {next : α → Operation Signal ω β}
    {calls : List Call} (h : ∀ value, computed = .ok value → (next value).Calls calls) :
    (Operation.ofExcept computed >>= next).Calls calls := by
  cases computed with
  | error failure => exact fun _ ↦ ⟨List.nil_prefix, nofun⟩
  | ok value =>
    show (Pure.pure value >>= next).Calls calls
    rw [pure_bind]
    exact h value rfl

/-- What calls nobody may be followed by the calls. -/
theorem Calls.after {op : Operation Signal ω α} {next : α → Operation Signal ω β}
    {calls : List Call} (hop : op.Calls []) (hnext : ∀ value, (next value).Calls calls) :
    (op >>= next).Calls calls :=
  hop.bind hnext

/-- What calls nobody may follow the calls. -/
theorem Calls.before {op : Operation Signal ω α} {next : α → Operation Signal ω β}
    {calls : List Call} (hop : op.Calls calls) (hnext : ∀ value, (next value).Calls []) :
    (op >>= next).Calls calls := by
  have h := hop.bind hnext
  rwa [List.append_nil] at h

end Operation

theorem Session.calls_onOutside {op : Operation Signal ω α} {calls : List Call}
    (h : op.Calls calls) : (Session.onOutside op : Operation Signal (Session ω) α).Calls calls :=
  fun s ↦ ⟨(h s.outside).first, (h s.outside).all⟩

theorem Session.calls_onReadings {op : Operation Signal (Memo Reading) α} {calls : List Call}
    (h : op.Calls calls) : (Session.onReadings op : Operation Signal (Session ω) α).Calls calls :=
  fun s ↦ ⟨(h s.readings).first, (h s.readings).all⟩

/-- A value that is made and kept is made with the calls of its making, or none if it was kept. -/
theorem Memo.calls_getOrMake {name : String} {factory : Operation Signal (Memo α) α}
    (h : factory.Calls []) : (Memo.getOrMake name factory).Calls [] := by
  have hsettle (value : α) : (Memo.settle name value : Operation Signal (Memo α) α).Calls [] := by
    intro m
    unfold Memo.settle
    split <;> exact ⟨List.prefix_rfl, fun _ ↦ rfl⟩
  intro m
  cases hkept : m.get? name with
  | some value =>
    rw [Memo.getOrMake_of_kept hkept]
    exact ⟨List.prefix_rfl, fun _ ↦ rfl⟩
  | none =>
    rw [Memo.getOrMake_of_missing hkept]
    exact h.after hsettle m

/-! ### The calls of requests -/

/-- The calls for the actor id of a user who becomes an actor if need be. -/
def acquireCalls (handle : Handle) (user : User) : List Call :=
  [.roster handle.domain, .acquire handle.domain user.name]

/-- The calls for the actor ids of users. Nobody is asked about no users. -/
def findCalls (handle : Handle) (users : List User) : List Call :=
  if users = [] then []
  else .roster handle.domain :: users.map fun user ↦ .find handle.domain user.name

/-- The calls that a request needs at a stage. -/
def Request.calls (stage : Stage) : Request → List Call
  | .read _ => []
  | .write handle _ user | .writeLinked handle _ user =>
    if stage.writesNew then acquireCalls handle user else []
  | .search handle _ among _ =>
    match stage.reading, User.listOf among with
    | .new, .ok users => findCalls handle users
    | _, _ => []

/-- The calls that are made for what happens. A write for a value that is no user may ask for the
roster before the value is refused. -/
def Happening.calls (stage : Stage) : Happening ω → List Call
  | .asked request => request.calls stage
  | .askedToWrite handle _ _ value =>
    match User.ofDatum? value with
    | some user => if stage.writesNew then acquireCalls handle user else []
    | none => if stage.writesOld then [] else [.roster handle.domain]
  | .changed _ => []

theorem FieldTable.calls_warn (t : FieldTable) (what version component key : String) :
    (t.warn what version component key : Operation Signal ω Unit).Calls [] :=
  .after (.report _ _ _) fun _ ↦ fun _ ↦ ⟨List.prefix_rfl, fun _ ↦ rfl⟩

theorem FieldTable.calls_pass (t : FieldTable) (key : String) :
    (t.pass key : Operation Signal ω UserField).Calls [] := by
  refine .after (.ofExcept _) fun field ↦ ?_
  cases field.removedIn with
  | some version => exact .fail _ _
  | none =>
    cases field.deprecatedIn with
    | some version => exact .after (t.calls_warn _ _ _ _) fun _ ↦ .pure _
    | none => exact .after (Operation.Calls.pure ()) fun _ ↦ .pure _

namespace Planner

theorem calls_read (p : Planner) (key : String) : (p.read key).Calls [] := by
  refine .after (p.table.calls_pass key) fun _ ↦ Memo.calls_getOrMake ?_
  exact .after (.ofExcept _) fun field ↦ .after (.report _ _ _) fun _ ↦ .pure _

theorem calls_acquireActor (storage : Storage ω) (handle : Handle) (key : String) (user : User) :
    (acquireActor storage handle key user).Calls (acquireCalls handle user) := by
  have hacquire : (storage.acquireActor handle.domain user).Calls
      [.acquire handle.domain user.name] := fun _ ↦ ⟨List.prefix_rfl, fun _ ↦ rfl⟩
  exact .bind (.call _) fun _ ↦ hacquire.before fun actor ↦ .after (.report _ _ _) fun _ ↦ .pure _

theorem calls_write (p : Planner) (storage : Storage ω) (handle : Handle) (key : String)
    (user : User) :
    (p.write storage handle key user).Calls
      (if p.stage.writesNew then acquireCalls handle user else []) := by
  refine .after (p.table.calls_pass key) fun field ↦ ?_
  split
  · exact .fail _ _
  · simp only
    split
    · exact (calls_acquireActor storage handle key user).before fun _ ↦ .pure _
    · exact .pure _

theorem calls_passLinked (p : Planner) (key : String) (field : UserField) :
    (p.passLinked key field : Operation Signal ω Unit).Calls [] := by
  unfold passLinked
  split
  · exact p.table.calls_warn _ _ _ _
  · exact .pure _
  · exact .fail _ _

theorem calls_writeLinked (p : Planner) (storage : Storage ω) (handle : Handle) (key : String)
    (user : User) :
    (p.writeLinked storage handle key user).Calls
      (if p.stage.writesNew then acquireCalls handle user else []) := by
  refine .after (p.table.calls_pass key) fun field ↦
    .after (p.calls_passLinked key field) fun _ ↦ ?_
  simp only
  split
  · refine (calls_acquireActor storage handle key user).before fun actor ↦ ?_
    split <;> exact .pure _
  · split <;> exact .pure _

theorem calls_refuseWrite (p : Planner) (handle : Handle) (key : String) (linked : Bool)
    (value : Datum) :
    (p.refuseWrite handle key linked value : Operation Signal ω α).Calls
      (if p.stage.writesOld then [] else [.roster handle.domain]) := by
  have hrefused : (p.refuseValue handle value : Operation Signal ω α).Calls
      (if p.stage.writesOld then [] else [.roster handle.domain]) := by
    unfold refuseValue
    split
    · exact .fail _ _
    · exact (Operation.Calls.call _).before fun _ ↦ .fail _ _
  cases linked with
  | true =>
    rw [refuseWrite_linked]
    exact .after (p.table.calls_pass key) fun field ↦
      .after (p.calls_passLinked key field) fun _ ↦ hrefused
  | false =>
    rw [refuseWrite_direct]
    refine .after (p.table.calls_pass key) fun field ↦ ?_
    split
    · exact .fail _ _
    · exact hrefused

theorem calls_findActors (storage : Storage ω) (domain : String) (users : List User) :
    (findActors storage domain users).Calls (users.map fun user ↦ .find domain user.name) := by
  induction users with
  | nil => exact .pure _
  | cons user rest ih =>
    have hfind : (storage.findActor domain user).Calls [.find domain user.name] :=
      fun _ ↦ ⟨List.prefix_rfl, fun _ ↦ rfl⟩
    refine hfind.bind fun found ↦ ih.before fun others ↦ ?_
    cases found <;> exact .pure _

theorem calls_alternatives (p : Planner) (storage : Storage ω) (handle : Handle) (key : String)
    (field : UserField) (users : List User) (includeIds : Bool) :
    (p.alternatives storage handle key field users includeIds).Calls
      (match p.stage.reading with
        | .old => []
        | .new => findCalls handle users) := by
  unfold alternatives findCalls
  cases p.stage.reading with
  | old => exact .after (.ofExcept _) fun _ ↦ .pure _
  | new =>
    cases users with
    | nil => exact .pure _
    | cons user rest =>
      exact .bind (.call _) fun _ ↦
        (calls_findActors storage handle.domain (user :: rest)).before fun _ ↦ .ofExcept _

theorem calls_search (p : Planner) (storage : Storage ω) (handle : Handle) (key : String)
    (among : Datum) (includeIds : Bool) :
    (p.search storage handle key among includeIds).Calls
      (Request.calls p.stage (.search handle key among includeIds)) := by
  refine .after (p.table.calls_pass key) fun field ↦ .ofExcept_bind fun users hlist ↦ ?_
  have hcalls : Request.calls p.stage (.search handle key among includeIds) =
      match p.stage.reading with
      | .old => []
      | .new => findCalls handle users := by
    rw [Request.calls, hlist]
    cases p.stage.reading <;> rfl
  rw [hcalls]
  exact (p.calls_alternatives storage handle key field users includeIds).before fun _ ↦
    .after (.ofExcept _) fun _ ↦ .after (.report _ _ _) fun _ ↦ .pure _

theorem calls_answer (p : Planner) (storage : Storage ω) (request : Request) :
    (p.answer storage request).Calls (request.calls p.stage) := by
  cases request with
  | read key => exact (Session.calls_onReadings (p.calls_read key)).before fun _ ↦ .pure _
  | write handle key user =>
    exact (Session.calls_onOutside (p.calls_write storage handle key user)).before fun _ ↦ .pure _
  | writeLinked handle key user =>
    exact (Session.calls_onOutside (p.calls_writeLinked storage handle key user)).before
      fun _ ↦ .pure _
  | search handle key among includeIds =>
    exact (Session.calls_onOutside (p.calls_search storage handle key among includeIds)).before
      fun _ ↦ .pure _

theorem calls_answerWrite (p : Planner) (storage : Storage ω) (handle : Handle) (key : String)
    (linked : Bool) (value : Datum) :
    (p.answerWrite storage handle key linked value).Calls
      (Happening.calls p.stage (.askedToWrite handle key linked value : Happening ω)) := by
  unfold answerWrite
  cases huser : User.ofDatum? value with
  | some user =>
    simp only [Happening.calls, huser]
    cases linked with
    | false => exact p.calls_answer storage (.write handle key user)
    | true => exact p.calls_answer storage (.writeLinked handle key user)
  | none =>
    simp only [Happening.calls, huser]
    exact Session.calls_onOutside (p.calls_refuseWrite handle key linked value)

/-- Whatever happens makes the calls that it needs. -/
theorem calls_meet (p : Planner) (storage : Storage ω) (h : Happening ω) :
    (p.meet storage h).Calls (h.calls p.stage) := by
  cases h with
  | asked request => exact (p.calls_answer storage request).before fun _ ↦ .pure _
  | askedToWrite handle key linked value =>
    exact (p.calls_answerWrite storage handle key linked value).before fun _ ↦ .pure _
  | changed f =>
    exact Operation.Calls.after (fun _ ↦ ⟨List.prefix_rfl, fun _ ↦ rfl⟩) fun _ ↦ .pure _

end Planner

/-! ### What finishing a write calls -/

/-- The statement that stores a row in a temp table, executed on the handle's connection. -/
def storeCall (handle : Handle) (t : TempTable) (row : Row) : Call :=
  .execute handle.connection (handle.dialect.render (.upsert t.name row.names [t.keyColumn]))
    row.values

namespace Handle

variable {storage : Storage ω} {handle : Handle} {table : String} {row : Row} {keys : List String}
variable {now later : ω}

theorem upsert_of_ok {cursor : Cursor}
    (h : storage.execute handle.connection handle.dialect (.upsert table row.names keys) row.values
      now = (.ok cursor, later)) :
    handle.upsert storage table row keys now = ⟨.ok (), later, [.call (.execute handle.connection
      (handle.dialect.render (.upsert table row.names keys)) row.values)]⟩ := by
  have hexecute : handle.execute storage (.upsert table row.names keys) row.values now =
      ⟨.ok cursor, later, [.call (.execute handle.connection
        (handle.dialect.render (.upsert table row.names keys)) row.values)]⟩ := by
    rw [execute, h]
    rfl
  unfold upsert Operation.orElseWith
  rw [Operation.bind_of_ok hexecute]
  rfl

theorem upsert_of_error {message : String}
    (h : storage.execute handle.connection handle.dialect (.upsert table row.names keys) row.values
      now = (.error message, later)) :
    ∃ event, handle.upsert storage table row keys now =
      ⟨.error (.upsertFailed table (.collaborator message)), later, [.call (.execute
        handle.connection (handle.dialect.render (.upsert table row.names keys)) row.values),
        .event event]⟩ := by
  have hexecute : handle.execute storage (.upsert table row.names keys) row.values now =
      ⟨.error (.collaborator message), later, [.call (.execute handle.connection
        (handle.dialect.render (.upsert table row.names keys)) row.values)]⟩ := by
    rw [execute, h]
    rfl
  unfold upsert Operation.orElseWith
  rw [Operation.bind_of_error hexecute]
  exact ⟨_, rfl⟩

theorem calls_upsert (handle : Handle) (storage : Storage ω) (t : TempTable) (row : Row) :
    (handle.upsert storage t.name row [t.keyColumn]).Calls [storeCall handle t row] := by
  intro state
  rcases hanswer : storage.execute handle.connection handle.dialect
    (.upsert t.name row.names [t.keyColumn]) row.values state with ⟨answer, later⟩
  cases answer with
  | ok cursor =>
    rw [upsert_of_ok hanswer]
    exact ⟨List.prefix_rfl, fun _ ↦ rfl⟩
  | error message =>
    obtain ⟨event, hupsert⟩ := upsert_of_error hanswer
    rw [hupsert]
    exact ⟨List.prefix_rfl, nofun⟩

end Handle

namespace PendingWrite

variable {storage : Storage ω}

/-- What finishing a pending write calls and gives: nothing and nothing performed, or the one
statement that stores the reported row. -/
inductive Finishes (w : PendingWrite) (op : Operation Signal ω Completion) : Prop
  | idle : op.Calls [] →
      (∀ {state later completion}, op.Gives state completion later → completion.performed = false) →
      Finishes w op
  | stored {t : TempTable} {actor : Int} {handle : Handle} {row : Row} :
      w.duty = .store t actor handle → op.Calls [storeCall handle t row] →
      (∀ {state later completion}, op.Gives state completion later →
        completion = ⟨true, some t.name, row⟩) → Finishes w op

theorem finishes_finish (w : PendingWrite) (storage : Storage ω) (mainKey extras : Datum) :
    w.Finishes (w.finish storage mainKey extras) := by
  rcases w with ⟨key, duty⟩
  cases duty with
  | nothing table actor =>
    refine .idle (.pure _) fun {state later completion} hgives ↦ ?_
    obtain ⟨rfl, -⟩ := hgives.unique (.pure _ state)
    rfl
  | check table actor =>
    refine .idle (.after (.ofExcept _) fun _ ↦ .pure _) fun {state later completion} hgives ↦ ?_
    obtain ⟨_, middle, -, hreturn⟩ := hgives.of_bind
    obtain ⟨rfl, -⟩ := hreturn.unique (.pure _ middle)
    rfl
  | store t actor handle =>
    have hfailed (failure : Failure) :
        (⟨key, .store t actor handle⟩ : PendingWrite).Finishes
          (Operation.fail failure : Operation Signal ω Completion) :=
      .idle (.fail failure []) fun ⟨_, h⟩ ↦ nomatch h
    simp only [finish]
    cases repeatedColumns key (if extras.truthy then extras else .record []) t.copies.entries with
    | error failure => exact hfailed failure
    | ok repeated =>
      show Finishes _ (Pure.pure repeated >>= _)
      rw [pure_bind]
      split
      · exact hfailed _
      · refine .stored rfl ((handle.calls_upsert storage t _).before fun _ ↦
          .after (.report _ _ _) fun _ ↦ .pure _) fun {state later completion} hgives ↦ ?_
        obtain ⟨_, middle, -, hreporting⟩ := hgives.of_bind
        exact (hreporting.unique (.bind (.sign _ middle) (.pure _ _))).1

end PendingWrite

end StagedColumns
