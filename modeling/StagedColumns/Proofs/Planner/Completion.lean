import StagedColumns.Proofs.PendingWrite
import StagedColumns.Proofs.Planner.Calls
import StagedColumns.Proofs.Planner.RoundTrip
import StagedColumns.Rehearsal

/-!
# Finishing is all or nothing

A pending write is finished with a primary key and values of the main row. If a required value is
missing, or else the primary key where a row is to be stored, this is reported and nothing is done.
Otherwise a row is stored by one statement, or nothing is to be done at all; and if the connection
refuses the statement, the refusal is reported as a failure of the storage (`AllOrNothing`). What is
executed depends on the write and on what is handed in, and on nothing that happened before, so that
finishing once more repeats the statement.
-/

set_option autoImplicit false

namespace StagedColumns

variable {ω : Type}

/-- What is executed to finish a write: a statement with its parameters, on a handle. -/
structure Execution where
  handle : Handle
  statement : Statement
  parameters : List Datum

namespace Execution

/-- The call that asks for the execution. -/
def call (e : Execution) : Call :=
  .execute e.handle.connection (e.handle.dialect.render e.statement) e.parameters

/-- What the connection answers in a state, and what it leaves. -/
def answer (e : Execution) (storage : Storage ω) (now : ω) : Except String Cursor × ω :=
  storage.execute e.handle.connection e.handle.dialect e.statement e.parameters now

end Execution

namespace PendingWrite

/-- The row that a write stores in its temp table: the primary key, the columns that are known
already, and the values handed in for those that are repeated. -/
def finalRow (w : PendingWrite) (t : TempTable) (mainKey : Datum)
    (entries : List (String × Datum)) : Row :=
  OrderedMap.ofList
    ((t.keyColumn, mainKey) :: (w.knownColumns.entries ++ copied entries t.copies.entries))

/-- What finishing the write executes, if anything. -/
def execution? (w : PendingWrite) (mainKey : Datum) (entries : List (String × Datum)) :
    Option Execution :=
  match w.duty with
  | .store t _ handle =>
    let row := w.finalRow t mainKey entries
    some ⟨handle, .upsert t.name row.names [t.keyColumn], row.values⟩
  | _ => none

/-- What comes of finishing a write in a state, with a primary key and values by their columns. -/
structure AllOrNothing (w : PendingWrite) (storage : Storage ω) (mainKey : Datum)
    (entries : List (String × Datum)) (now : ω) (outcome : Outcome Signal ω Completion) :
    Prop where
  /-- The first required column without a value is reported. -/
  missing {failure : Failure} :
    outcome.result = .error failure ∧ failure.Is .missingValue ↔
      ∃ column, w.FirstMissing (entries.map Prod.fst) column ∧
        failure = .missingValue w.key column
  /-- If there is none, the absence of the primary key is reported where a row is to be stored. -/
  misused {failure : Failure} : w.Complete (entries.map Prod.fst) →
    (outcome.result = .error failure ∧ failure.Is .usage ↔
      failure = .needsPrimaryKey w.key ∧ w.action = .store ∧ mainKey = .null)
  /-- By then nothing is executed and nothing has changed. -/
  untouched {failure : Failure} : outcome.result = .error failure → failure.Is .usage →
    callsIn outcome.trace = [] ∧ outcome.state = now
  /-- Otherwise one statement is executed where a row is to be stored, and else none. -/
  executed : w.Complete (entries.map Prod.fst) → ¬(w.action = .store ∧ mainKey = .null) →
    callsIn outcome.trace = ((w.execution? mainKey entries).map Execution.call).toList ∧
      ((callsIn outcome.trace).length = 1 ↔ w.action = .store)
  /-- A row was written exactly if the statement was executed successfully. -/
  performed {c : Completion} : outcome.result = .ok c →
    (c.performed = true ↔ ∃ e cursor, w.execution? mainKey entries = some e ∧
      callsIn outcome.trace = [e.call] ∧ e.answer storage now = (.ok cursor, outcome.state))
  /-- There is a result unless something is missing or the statement is refused. -/
  succeeds : w.Complete (entries.map Prod.fst) → ¬(w.action = .store ∧ mainKey = .null) →
    (∀ e, w.execution? mainKey entries = some e → ∃ cursor, (e.answer storage now).1 = .ok cursor) →
      ∃ c, outcome.result = .ok c
  /-- A statement that is refused is reported as a failure of the storage, with the table and what
  the connection reports. -/
  refused {e : Execution} {message : String} : w.Complete (entries.map Prod.fst) →
    mainKey ≠ .null → w.execution? mainKey entries = some e →
    (e.answer storage now).1 = .error message →
      ∃ t failure, w.table? = some t ∧ outcome.result = .error failure ∧
        failure.kind? = some .storage ∧ failure.cause? = some (.collaborator message) ∧
        ∃ l, failure.circumstances.listing = .ok l ∧ l.entries = [(.text "table", .text t.name)]

/-! ### The ways in which finishing a write ends -/

/-- How finishing a write ends, one case for each way. -/
inductive Finished (w : PendingWrite) (storage : Storage ω) (mainKey : Datum)
    (entries : List (String × Datum)) (now : ω) : Outcome Signal ω Completion → Prop
  | missing {column : String} : w.FirstMissing (entries.map Prod.fst) column →
      Finished w storage mainKey entries now ⟨.error (.missingValue w.key column), now, []⟩
  | keyless : w.Complete (entries.map Prod.fst) → w.action = .store → mainKey = .null →
      Finished w storage mainKey entries now ⟨.error (.needsPrimaryKey w.key), now, []⟩
  | idle {c : Completion} : w.Complete (entries.map Prod.fst) → w.action ≠ .store →
      c.performed = false → Finished w storage mainKey entries now ⟨.ok c, now, []⟩
  | stored {e : Execution} {cursor : Cursor} {later : ω} {signs : List Signal} {c : Completion} :
      w.Complete (entries.map Prod.fst) → mainKey ≠ .null →
      w.execution? mainKey entries = some e → e.answer storage now = (.ok cursor, later) →
      callsIn signs = [e.call] → c.performed = true →
      Finished w storage mainKey entries now ⟨.ok c, later, signs⟩
  | refused {e : Execution} {message : String} {later : ω} {signs : List Signal} {t : TempTable} :
      w.Complete (entries.map Prod.fst) → mainKey ≠ .null →
      w.execution? mainKey entries = some e → e.answer storage now = (.error message, later) →
      callsIn signs = [e.call] → w.table? = some t →
      Finished w storage mainKey entries now
        ⟨.error (.upsertFailed t.name (.collaborator message)), later, signs⟩

variable {w : PendingWrite} {storage : Storage ω} {mainKey extras : Datum}
  {entries : List (String × Datum)} {now : ω}

theorem execution?_isSome_iff (mainKey : Datum) (entries : List (String × Datum)) :
    (w.execution? mainKey entries).isSome = true ↔ w.action = .store := by
  unfold execution? action
  cases w.duty <;> simp

/-- The row is put together in the order in which its columns are known. -/
theorem storedRow_eq_finalRow (key : String) (t : TempTable) (actor : Int) (handle : Handle) :
    storedRow t mainKey actor (copied entries t.copies.entries) =
      finalRow ⟨key, .store t actor handle⟩ t mainKey entries := by
  unfold storedRow finalRow OrderedMap.ofList OrderedMap.putAll
  simp only [List.foldl_cons, List.foldl_nil, List.foldl_append]
  rfl

/-- With all its columns, a write that stores something is a matter of the primary key and of what
the storage answers. -/
theorem finished_store {key : String} {t : TempTable} {actor : Int} {handle : Handle}
    (storage : Storage ω) (mainKey : Datum) (now : ω)
    (hcomplete : Complete ⟨key, .store t actor handle⟩ (entries.map Prod.fst))
    (hgiven : extras.HandsIn entries) :
    Finished ⟨key, .store t actor handle⟩ storage mainKey entries now
      (finish ⟨key, .store t actor handle⟩ storage mainKey extras now) := by
  have hextras := hgiven.eq_record
  have hcopied := repeatedColumns_of_complete key hcomplete
  simp only [finish, hextras, hcopied]
  change Finished _ storage mainKey entries now
    ((pure _ >>= _ : Operation Signal ω Completion) now)
  rw [pure_bind]
  split
  · exact .keyless hcomplete rfl rfl
  · next hkey =>
    rw [storedRow_eq_finalRow key t actor handle]
    obtain ⟨row, hrow⟩ : ∃ row, finalRow ⟨key, .store t actor handle⟩ t mainKey entries = row :=
      ⟨_, rfl⟩
    have hexecution : execution? ⟨key, .store t actor handle⟩ mainKey entries =
        some ⟨handle, .upsert t.name row.names [t.keyColumn], row.values⟩ := by
      rw [← hrow]
      rfl
    rw [hrow]
    rcases hanswer : storage.execute handle.connection handle.dialect
      (.upsert t.name row.names [t.keyColumn]) row.values now with ⟨answer, later⟩
    cases answer with
    | ok cursor =>
      rw [Operation.bind_of_ok (Handle.upsert_of_ok hanswer)]
      exact .stored hcomplete hkey hexecution hanswer rfl rfl
    | error message =>
      obtain ⟨event, hupsert⟩ := Handle.upsert_of_error hanswer
      rw [Operation.bind_of_error hupsert]
      exact .refused hcomplete hkey hexecution hanswer rfl rfl

/-- A write for which there is nothing to do is finished at once, provided that it requires nothing.
-/
theorem finished_finish (storage : Storage ω) (mainKey : Datum) (now : ω)
    (hidle : w.action = .nothing → w.requiredColumns = [])
    (hgiven : extras.HandsIn entries) :
    Finished w storage mainKey entries now (w.finish storage mainKey extras now) := by
  have hextras := hgiven.eq_record
  rcases w with ⟨key, duty⟩
  rcases complete_or_firstMissing ⟨key, duty⟩ (entries.map Prod.fst) with
    hcomplete | ⟨column, hfirst⟩
  · cases duty with
    | nothing table actor => exact .idle hcomplete (by intro h; cases h) rfl
    | check t actor =>
      have hcopied := repeatedColumns_of_complete key hcomplete
      simp only [finish, hextras, hcopied]
      exact .idle hcomplete (by intro h; cases h) rfl
    | store t actor handle =>
      exact finished_store storage mainKey now hcomplete hgiven
  · obtain ⟨before, after, heq, hbefore, hmissing⟩ := id hfirst
    cases duty with
    | nothing table actor =>
      rw [hidle rfl] at heq
      simp at heq
    | check t actor =>
      have hmissed := repeatedColumns_of_missing key heq hbefore hmissing
      simp only [finish, hextras, hmissed]
      exact .missing hfirst
    | store t actor handle =>
      have hmissed := repeatedColumns_of_missing key heq hbefore hmissing
      simp only [finish, hextras, hmissed]
      exact .missing hfirst

/-! ### What follows from how it ends -/

variable {outcome : Outcome Signal ω Completion}

theorem Finished.missing_iff (h : Finished w storage mainKey entries now outcome)
    {failure : Failure} :
    outcome.result = .error failure ∧ failure.Is .missingValue ↔
      ∃ column, w.FirstMissing (entries.map Prod.fst) column ∧
        failure = .missingValue w.key column := by
  have hcontra {column : String} (hcomplete : w.Complete (entries.map Prod.fst))
      (hfirst : w.FirstMissing (entries.map Prod.fst) column) : False :=
    hfirst.not_complete hcomplete
  cases h with
  | @missing column hfirst =>
    constructor
    · rintro ⟨hfailed, -⟩
      cases hfailed
      exact ⟨column, hfirst, rfl⟩
    · rintro ⟨other, hother, rfl⟩
      rw [hfirst.unique hother]
      exact ⟨rfl, (Failure.is_iff rfl).mpr (by decide)⟩
  | keyless hcomplete =>
    refine ⟨?_, fun ⟨_, hfirst, _⟩ ↦ (hcontra hcomplete hfirst).elim⟩
    rintro ⟨hfailed, hkind⟩
    cases hfailed
    exact absurd ((Failure.is_iff rfl).mp hkind) (by decide)
  | idle hcomplete =>
    exact ⟨fun ⟨hfailed, _⟩ ↦ (nomatch hfailed),
      fun ⟨_, hfirst, _⟩ ↦ (hcontra hcomplete hfirst).elim⟩
  | stored hcomplete =>
    exact ⟨fun ⟨hfailed, _⟩ ↦ (nomatch hfailed),
      fun ⟨_, hfirst, _⟩ ↦ (hcontra hcomplete hfirst).elim⟩
  | refused hcomplete =>
    refine ⟨?_, fun ⟨_, hfirst, _⟩ ↦ (hcontra hcomplete hfirst).elim⟩
    rintro ⟨hfailed, hkind⟩
    cases hfailed
    exact absurd ((Failure.is_iff rfl).mp hkind) (by decide)

theorem Finished.misused_iff (h : Finished w storage mainKey entries now outcome)
    (hcomplete : w.Complete (entries.map Prod.fst)) {failure : Failure} :
    outcome.result = .error failure ∧ failure.Is .usage ↔
      failure = .needsPrimaryKey w.key ∧ w.action = .store ∧ mainKey = .null := by
  cases h with
  | missing hfirst => exact absurd hcomplete hfirst.not_complete
  | keyless _ haction hkey =>
    constructor
    · rintro ⟨hfailed, -⟩
      cases hfailed
      exact ⟨rfl, haction, hkey⟩
    · rintro ⟨rfl, -, -⟩
      exact ⟨rfl, (Failure.is_iff rfl).mpr (by decide)⟩
  | idle _ haction =>
    exact ⟨fun ⟨hfailed, _⟩ ↦ (nomatch hfailed), fun ⟨_, hstore, _⟩ ↦ absurd hstore haction⟩
  | stored _ hkey =>
    exact ⟨fun ⟨hfailed, _⟩ ↦ (nomatch hfailed), fun ⟨_, _, hnull⟩ ↦ absurd hnull hkey⟩
  | refused _ hkey =>
    refine ⟨?_, fun ⟨_, _, hnull⟩ ↦ absurd hnull hkey⟩
    rintro ⟨hfailed, hkind⟩
    cases hfailed
    exact absurd ((Failure.is_iff rfl).mp hkind) (by decide)

theorem Finished.untouched (h : Finished w storage mainKey entries now outcome)
    {failure : Failure} (hfailed : outcome.result = .error failure) (hkind : failure.Is .usage) :
    callsIn outcome.trace = [] ∧ outcome.state = now := by
  cases h with
  | missing => exact ⟨rfl, rfl⟩
  | keyless => exact ⟨rfl, rfl⟩
  | idle => exact ⟨rfl, rfl⟩
  | stored => cases hfailed
  | refused =>
    cases hfailed
    exact absurd ((Failure.is_iff rfl).mp hkind) (by decide)

theorem Finished.calls_eq (h : Finished w storage mainKey entries now outcome)
    (hcomplete : w.Complete (entries.map Prod.fst)) (hkey : ¬(w.action = .store ∧ mainKey = .null)) :
    callsIn outcome.trace = ((w.execution? mainKey entries).map Execution.call).toList := by
  cases h with
  | missing hfirst => exact absurd hcomplete hfirst.not_complete
  | keyless _ haction hnull => exact absurd ⟨haction, hnull⟩ hkey
  | idle _ haction =>
    have hnone : w.execution? mainKey entries = none := by
      rw [← Option.not_isSome_iff_eq_none, execution?_isSome_iff]
      exact haction
    rw [hnone]
    rfl
  | stored _ _ hexecution _ hcalls => rw [hcalls, hexecution]; rfl
  | refused _ _ hexecution _ hcalls => rw [hcalls, hexecution]; rfl

theorem Finished.performed_iff (h : Finished w storage mainKey entries now outcome)
    {c : Completion} (hgiven : outcome.result = .ok c) :
    c.performed = true ↔ ∃ e cursor, w.execution? mainKey entries = some e ∧
      callsIn outcome.trace = [e.call] ∧ e.answer storage now = (.ok cursor, outcome.state) := by
  cases h with
  | missing => cases hgiven
  | keyless => cases hgiven
  | idle _ haction hidle =>
    cases hgiven
    refine ⟨fun hperformed ↦ ?_, fun ⟨_, _, _, hcalls, _⟩ ↦ nomatch hcalls⟩
    rw [hidle] at hperformed
    cases hperformed
  | stored _ _ hexecution hanswer hcalls hperformed =>
    cases hgiven
    exact ⟨fun _ ↦ ⟨_, _, hexecution, hcalls, hanswer⟩, fun _ ↦ hperformed⟩
  | refused => cases hgiven

theorem Finished.succeeds (h : Finished w storage mainKey entries now outcome)
    (hcomplete : w.Complete (entries.map Prod.fst)) (hkey : ¬(w.action = .store ∧ mainKey = .null))
    (haccepts : ∀ e, w.execution? mainKey entries = some e →
      ∃ cursor, (e.answer storage now).1 = .ok cursor) : ∃ c, outcome.result = .ok c := by
  cases h with
  | missing hfirst => exact absurd hcomplete hfirst.not_complete
  | keyless _ haction hnull => exact absurd ⟨haction, hnull⟩ hkey
  | idle => exact ⟨_, rfl⟩
  | stored => exact ⟨_, rfl⟩
  | refused _ _ hexecution hanswer =>
    obtain ⟨cursor, haccepted⟩ := haccepts _ hexecution
    rw [hanswer] at haccepted
    cases haccepted

theorem Finished.refused_eq (h : Finished w storage mainKey entries now outcome)
    (hcomplete : w.Complete (entries.map Prod.fst)) (hkey : mainKey ≠ .null) {e : Execution}
    {message : String} (hexecution : w.execution? mainKey entries = some e)
    (hrefused : (e.answer storage now).1 = .error message) :
    ∃ t, w.table? = some t ∧
      outcome.result = .error (.upsertFailed t.name (.collaborator message)) := by
  cases h with
  | missing hfirst => exact absurd hcomplete hfirst.not_complete
  | keyless _ _ hnull => exact absurd hnull hkey
  | idle _ haction =>
    exact absurd ((execution?_isSome_iff mainKey entries).mp (Option.isSome_of_eq_some hexecution))
      haction
  | stored _ _ hother hanswer =>
    cases hother.symm.trans hexecution
    rw [hanswer] at hrefused
    cases hrefused
  | refused _ _ hother hanswer _ htable =>
    cases hother.symm.trans hexecution
    rw [hanswer] at hrefused
    cases hrefused
    exact ⟨_, htable, rfl⟩

theorem Finished.allOrNothing (h : Finished w storage mainKey entries now outcome) :
    w.AllOrNothing storage mainKey entries now outcome where
  missing := h.missing_iff
  misused hcomplete := h.misused_iff hcomplete
  untouched := h.untouched
  executed hcomplete hkey := by
    have hcalls := h.calls_eq hcomplete hkey
    refine ⟨hcalls, ?_⟩
    rw [hcalls, ← execution?_isSome_iff mainKey entries]
    cases w.execution? mainKey entries <;> simp
  performed := h.performed_iff
  succeeds := h.succeeds
  refused hcomplete hkey hexecution hanswer := by
    obtain ⟨t, htable, hfailed⟩ := h.refused_eq hcomplete hkey hexecution hanswer
    exact ⟨t, _, htable, hfailed, rfl, rfl, _, rfl, rfl⟩

/-- Whatever the state, finishing executes the same. -/
theorem callsIn_finish_eq (hidle : w.action = .nothing → w.requiredColumns = [])
    (hgiven : extras.HandsIn entries) (now other : ω) :
    callsIn (w.finish storage mainKey extras now).trace =
      callsIn (w.finish storage mainKey extras other).trace := by
  have hnow := finished_finish storage mainKey now hidle hgiven
  have hother := finished_finish storage mainKey other hidle hgiven
  rcases w.complete_or_firstMissing (entries.map Prod.fst) with hcomplete | ⟨column, hfirst⟩
  · by_cases hkey : w.action = .store ∧ mainKey = .null
    · have hfailed := hnow.misused_iff hcomplete |>.mpr ⟨rfl, hkey⟩
      have hfailed' := hother.misused_iff hcomplete |>.mpr ⟨rfl, hkey⟩
      rw [(hnow.untouched hfailed.1 hfailed.2).1, (hother.untouched hfailed'.1 hfailed'.2).1]
    · rw [hnow.calls_eq hcomplete hkey, hother.calls_eq hcomplete hkey]
  · have hmissed := hnow.missing_iff.mpr ⟨column, hfirst, rfl⟩
    have hmissed' := hother.missing_iff.mpr ⟨column, hfirst, rfl⟩
    have husage {key : String} : (Failure.missingValue key column).Is .usage :=
      (Failure.is_iff rfl).mpr (by decide)
    rw [(hnow.untouched hmissed.1 husage).1, (hother.untouched hmissed'.1 husage).1]

/-- How an accepted write may fail to be finished. What it was made of is always there. -/
theorem Made.failure_cases {key : String} {action : WriteAction} {table : Option TempTable}
    {actor : Option Int} {handle : Option Handle} (h : Made key action table actor handle w)
    (hgiven : extras.HandsIn entries) {failure : Failure}
    (hfailed : (w.finish storage mainKey extras now).result = .error failure) :
    (∃ column : String, failure = .missingValue key column) ∨ failure = .needsPrimaryKey key ∨
      ∃ t message, table = some t ∧ failure = .upsertFailed t.name (.collaborator message) := by
  have hcases (hidle : w.action = .nothing → w.requiredColumns = []) (hkey : w.key = key)
      (htable : w.table? = table) :
      (∃ column : String, failure = .missingValue key column) ∨ failure = .needsPrimaryKey key ∨
        ∃ t message, table = some t ∧ failure = .upsertFailed t.name (.collaborator message) := by
    have hfinished := finished_finish storage mainKey now hidle hgiven
    generalize w.finish storage mainKey extras now = outcome at hfailed hfinished
    subst hkey htable
    cases hfinished with
    | missing =>
      cases hfailed
      exact .inl ⟨_, rfl⟩
    | keyless =>
      cases hfailed
      exact .inr (.inl rfl)
    | idle => cases hfailed
    | stored => cases hfailed
    | refused _ _ _ _ _ htable =>
      cases hfailed
      exact .inr (.inr ⟨_, _, htable, rfl⟩)
  cases h with
  | nothing => cases hfailed
  | check => exact hcases nofun rfl rfl
  | store => exact hcases nofun rfl rfl

end PendingWrite

namespace Planner

/-- A write that is left pending for nothing requires nothing. -/
theorem requiredColumns_pendingWrite {stage : Stage} {handle : Handle} {key : String}
    {field : UserField} {actor : Int}
    (hidle : (pendingWrite stage handle key field actor).action = .nothing) :
    (pendingWrite stage handle key field actor).requiredColumns = [] := by
  unfold pendingWrite at hidle ⊢
  cases htable : field.tempTable with
  | none => rfl
  | some t =>
    simp only [htable] at hidle
    split at hidle <;> cases hidle

theorem table?_pendingWrite (stage : Stage) (handle : Handle) (key : String) (field : UserField)
    (actor : Int) : (pendingWrite stage handle key field actor).table? = field.tempTable := by
  unfold pendingWrite
  cases field.tempTable with
  | none => rfl
  | some t =>
    simp only
    split <;> rfl

/-- Finishing a write that a planner left pending, with any primary key and any values or none, is
all or nothing. It requires the values of the columns that the temp table of the field repeats, in
their order. Whatever happened before, finishing it executes the same, or nothing. And no write is
accepted that lacks the temp table, the actor id or the handle that it needs, so that finishing one
fails only for what is handed in or by the connection. -/
theorem finishing_all_or_nothing {p : Planner} {storage : Storage ω} {handle : Handle}
    {key : String} {user : User} {state later : ω} {row : Row} {w : PendingWrite}
    (hwritten : (p.writeLinked storage handle key user).Gives state (row, w) later)
    (mainKey : Datum) {extras : Datum} {entries : List (String × Datum)}
    (hgiven : extras.HandsIn entries) :
    (w.key = key ∧ ∃ field, p.table.Admits key field ∧ w.table? = field.tempTable) ∧
      (∀ now, w.AllOrNothing storage mainKey entries now
        (w.finish storage mainKey extras now)) ∧
      (∀ now other, callsIn (w.finish storage mainKey extras now).trace =
        callsIn (w.finish storage mainKey extras other).trace) ∧
      ∀ (key : String) (action : WriteAction) (table : Option TempTable) (actor : Option Int)
        (handle : Option Handle),
        ((∃ made, PendingWrite.make key action table actor handle = .ok made) ↔
          action.Has table actor handle) ∧
        ∀ made, PendingWrite.make key action table actor handle = .ok made →
          made.action = action ∧ made.table? = table ∧ made.actor? = actor ∧
          ∀ now failure, (made.finish storage mainKey extras now).result = .error failure →
            (∃ column : String, failure = .missingValue key column) ∨
              failure = .needsPrimaryKey key ∨
              ∃ t message, table = some t ∧
                failure = .upsertFailed t.name (.collaborator message) := by
  obtain ⟨field, actor, hadmits, -, -, -, rfl⟩ := of_gives_writeLinked hwritten
  have hkey : (pendingWrite p.stage handle key field actor).key = key := by
    unfold pendingWrite
    cases field.tempTable <;> rfl
  refine ⟨⟨hkey, field, hadmits, table?_pendingWrite ..⟩, fun now ↦ ?_, fun now other ↦ ?_,
    fun key action table actor handle ↦ ⟨?_, fun made hmade ↦ ?_⟩⟩
  · exact (PendingWrite.finished_finish _ _ _ requiredColumns_pendingWrite hgiven).allOrNothing
  · exact PendingWrite.callsIn_finish_eq requiredColumns_pendingWrite hgiven now other
  · simp only [PendingWrite.make_eq_ok_iff, PendingWrite.exists_made_iff]
  · have hmade := PendingWrite.make_eq_ok_iff.mp hmade
    refine ⟨?_, ?_, ?_, fun now failure hfailed ↦ hmade.failure_cases hgiven hfailed⟩
    all_goals cases hmade <;> rfl

/-- An entry of the archive that waits for its key and its timestamp. -/
def archiveEntry : PendingWrite :=
  ⟨"ar_user", .store ⟨"archive_actor", "aa_archive", "aa_actor", "ar_id",
    OrderedMap.ofList [("aa_timestamp", "ar_timestamp")]⟩ 1 ⟨"main", .sqlite, "local"⟩⟩

/-- A rehearsal whose connections refuse every statement. -/
def lockedStorage : Storage Rehearsal :=
  { Storage.rehearsal with execute := fun _ _ _ _ r ↦ (.error "database is locked", r) }

/-- Without its timestamp the entry is refused, without its key as well, and where the connection
refuses the statement, that is reported. -/
theorem archive_entry_refused :
    (∃ later, ((archivePlanner ⟨.new, .new, rfl⟩).writeLinked lockedStorage
        ⟨"main", .sqlite, "local"⟩ "ar_user" ⟨7, "Ada", .null⟩).Gives ⟨.empty, [], .empty⟩
      (.empty, archiveEntry) later) ∧
    ∀ now : Rehearsal,
      (archiveEntry.finish lockedStorage (.int 5) .null now).result =
        .error (.missingValue "ar_user" "ar_timestamp") ∧
      (archiveEntry.finish lockedStorage .null (.record [("ar_timestamp", .text "2021")])
        now).result = .error (.needsPrimaryKey "ar_user") ∧
      ∃ failure, (archiveEntry.finish lockedStorage (.int 5)
          (.record [("ar_timestamp", .text "2021")]) now).result = .error failure ∧
        failure.cause? = some (.collaborator "database is locked") := by
  have hwritten : ((archivePlanner ⟨.new, .new, rfl⟩).writeLinked lockedStorage
      ⟨"main", .sqlite, "local"⟩ "ar_user" ⟨7, "Ada", .null⟩).Gives ⟨.empty, [], .empty⟩
      (.empty, archiveEntry)
      ⟨OrderedMap.ofList [("local", OrderedMap.ofList [("Ada", 1)])], [], .empty⟩ := ⟨_, rfl⟩
  have hcomplete : archiveEntry.Complete ["ar_timestamp"] := by decide
  obtain ⟨-, hnothing, -⟩ := finishing_all_or_nothing hwritten (.int 5) .nothing
  obtain ⟨-, hkeyless, -⟩ := finishing_all_or_nothing hwritten .null
    (.record [("ar_timestamp", .text "2021")])
  obtain ⟨-, hkeyed, -⟩ := finishing_all_or_nothing hwritten (.int 5)
    (.record [("ar_timestamp", .text "2021")])
  refine ⟨⟨_, hwritten⟩, fun now ↦ ⟨?_, ?_, ?_⟩⟩
  · exact ((hnothing now).missing.mpr ⟨_, ⟨[], [], rfl, nofun, nofun⟩, rfl⟩).1
  · exact (((hkeyless now).misused hcomplete).mpr ⟨rfl, rfl, rfl⟩).1
  · obtain ⟨t, failure, -, hfailed, -, hcause, -⟩ := (hkeyed now).refused hcomplete nofun rfl rfl
    exact ⟨failure, hfailed, hcause⟩

end Planner

end StagedColumns
