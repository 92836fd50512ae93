import StagedColumns.Planner.Write
import StagedColumns.Proofs.Field.Gate
import StagedColumns.Proofs.Query.Database

/-!
# What a write gives

A field is written by one of two operations, or by either of them if it once had a temp table.
Whichever is chosen and accepts the field, it gives the same values for the main row and leaves the
same write pending (`gives_writeBy`); what the values are follows from the stage, the names of the
columns, the user and the actor id.
-/

set_option autoImplicit false

namespace StagedColumns

variable {ω : Type}

/-- The way to write, linked or not, that a caller may choose for the field. -/
def UserField.accepts (field : UserField) (linked : Bool) : Bool :=
  if linked then field.formerTempTableIn.isSome || field.tempTable.isSome
  else field.tempTable.isNone

namespace Planner

/-- Asks for a write the one way or the other. Nothing is pending after a write that is not linked.
-/
def writeBy (p : Planner) (storage : Storage ω) (handle : Handle) (key : String) (user : User)
    (linked : Bool) : Operation Signal ω (Row × PendingWrite) :=
  if linked then p.writeLinked storage handle key user
  else do return (← p.write storage handle key user, .idle key)

/-- The values that a write gives for the main row. -/
def mainValues (stage : Stage) (key : String) (field : UserField) (user : User) (actor : Int) :
    Row :=
  let names := field.columnNames key
  let values := oldValues stage key names.text user
  if stage.writesNew ∧ field.tempTable = none then values.put names.actor (.int actor) else values

/-- What is pending after a write. -/
def pendingWrite (stage : Stage) (handle : Handle) (key : String) (field : UserField)
    (actor : Int) : PendingWrite :=
  match field.tempTable with
  | none => .idle key
  | some t => ⟨key, if stage.writesNew then .store t actor handle else .check t none⟩

/-- The roster gives the actor id of the user, if the stage of the planner asks for one. -/
def Acquires (p : Planner) (storage : Storage ω) (handle : Handle) (user : User) (state : ω)
    (actor : Int) (later : ω) : Prop :=
  if p.stage.writesNew then storage.acquire handle.domain user state = (.ok actor, later)
  else later = state

section Writing

variable {p : Planner} {storage : Storage ω} {handle : Handle} {key : String} {field : UserField}
variable {user : User} {state later : ω} {actor : Int}

theorem gives_acquireActor
    (h : storage.acquire handle.domain user state = (.ok actor, later)) :
    (acquireActor storage handle key user).Gives state actor later := by
  have hacquire : (storage.acquireActor handle.domain user).Gives state actor later :=
    ⟨[.call (.acquire handle.domain user.name)], by rw [Storage.acquireActor, h]; rfl⟩
  exact .bind (.sign _ _) (.bind hacquire (.bind (.sign _ _) (.pure _ _)))

theorem gives_write (hadmits : p.table.Admits key field) (htable : field.tempTable = none)
    (hacquires : p.Acquires storage handle user state actor later) :
    (p.write storage handle key user).Gives state (mainValues p.stage key field user actor)
      later := by
  refine .bind (hadmits.gives_pass state) ?_
  unfold Acquires at hacquires
  unfold mainValues
  simp only [htable, Option.isSome_none, Bool.false_eq_true, if_false, and_true]
  by_cases hnew : p.stage.writesNew = true
  · rw [if_pos hnew] at hacquires ⊢
    rw [if_pos hnew]
    exact .bind (gives_acquireActor hacquires) (.pure _ _)
  · rw [if_neg hnew] at hacquires ⊢
    rw [if_neg hnew, hacquires]
    exact .pure _ _

theorem gives_passLinked (haccepts : field.accepts true = true) :
    (p.passLinked key field).Gives state () state := by
  simp only [UserField.accepts, if_true, Bool.or_eq_true] at haccepts
  unfold passLinked
  cases hformer : field.formerTempTableIn with
  | some version => exact p.table.gives_warn _ _ _ _ state
  | none =>
    cases htable : field.tempTable with
    | some t => exact .pure _ _
    | none => simp [hformer, htable] at haccepts

theorem gives_writeLinked (hadmits : p.table.Admits key field)
    (haccepts : field.accepts true = true)
    (hacquires : p.Acquires storage handle user state actor later) :
    (p.writeLinked storage handle key user).Gives state
      (mainValues p.stage key field user actor, pendingWrite p.stage handle key field actor)
      later := by
  refine .bind (hadmits.gives_pass state) (.bind (gives_passLinked haccepts) ?_)
  unfold Acquires at hacquires
  unfold mainValues pendingWrite
  by_cases hnew : p.stage.writesNew = true
  · rw [if_pos hnew] at hacquires
    simp only [hnew, if_true, true_and]
    refine .bind (gives_acquireActor hacquires) ?_
    cases field.tempTable with
    | none => exact .pure _ _
    | some t => exact .pure _ _
  · rw [if_neg hnew] at hacquires
    subst hacquires
    simp only [hnew]
    cases field.tempTable with
    | none => exact .pure _ _
    | some t => exact .pure _ _

/-- Whichever way to write accepts the field, it gives the same values. -/
theorem gives_writeBy {linked : Bool} (hadmits : p.table.Admits key field)
    (haccepts : field.accepts linked = true)
    (hacquires : p.Acquires storage handle user state actor later) :
    (p.writeBy storage handle key user linked).Gives state
      (mainValues p.stage key field user actor, pendingWrite p.stage handle key field actor)
      later := by
  cases linked with
  | true => exact gives_writeLinked hadmits haccepts hacquires
  | false =>
    have htable : field.tempTable = none := by simpa [UserField.accepts] using haccepts
    have hpending : pendingWrite p.stage handle key field actor = .idle key := by
      rw [pendingWrite, htable]
    rw [hpending]
    exact .bind (gives_write hadmits htable hacquires) (.pure _ _)

theorem of_gives_acquireActor (h : (acquireActor storage handle key user).Gives state actor later) :
    storage.acquire handle.domain user state = (.ok actor, later) := by
  obtain ⟨_, asked, hask, hacquiring⟩ := h.of_bind
  obtain ⟨-, rfl⟩ := hask.unique (.sign _ state)
  obtain ⟨found, middle, ⟨trace, hacquire⟩, hreporting⟩ := hacquiring.of_bind
  obtain ⟨rfl, rfl⟩ := hreporting.unique (.bind (.sign _ _) (.pure _ _))
  rcases hanswer : storage.acquire handle.domain user asked with ⟨answer, next⟩
  rw [Storage.acquireActor, hanswer] at hacquire
  cases answer with
  | error message => cases hacquire
  | ok given =>
    cases hacquire
    rfl

theorem of_gives_passLinked (h : (p.passLinked key field).Gives state () later) :
    field.accepts true = true ∧ later = state := by
  by_cases haccepts : field.accepts true = true
  · exact ⟨haccepts, (h.unique (gives_passLinked haccepts)).2⟩
  · simp only [UserField.accepts, if_true, Bool.or_eq_true, not_or, Bool.not_eq_true,
      Option.isSome_eq_false_iff, Option.isNone_iff_eq_none] at haccepts
    obtain ⟨trace, h⟩ := h
    unfold passLinked at h
    rw [haccepts.1, haccepts.2] at h
    cases h

/-- A linked write that is given is that of a field that accepts it, with the actor id that the
roster gave. -/
theorem of_gives_writeLinked {row : Row} {pending : PendingWrite}
    (h : (p.writeLinked storage handle key user).Gives state (row, pending) later) :
    ∃ field actor, p.table.Admits key field ∧ field.accepts true = true ∧
      p.Acquires storage handle user state actor later ∧
      row = mainValues p.stage key field user actor ∧
      pending = pendingWrite p.stage handle key field actor := by
  rcases p.table.refused_or_admits key with ⟨failure, hrefused⟩ | ⟨field, hadmits⟩
  · obtain ⟨trace, h⟩ := h
    rw [writeLinked, Operation.bind_of_error (hrefused.pass_eq state)] at h
    cases h
  · obtain ⟨other, passed, hpass, hpassing⟩ := h.of_bind
    obtain ⟨rfl, rfl⟩ := hpass.unique (hadmits.gives_pass state)
    obtain ⟨_, middle, hlinked, hwriting⟩ := hpassing.of_bind
    obtain ⟨haccepts, rfl⟩ := of_gives_passLinked hlinked
    have hacquires : ∃ actor next, p.Acquires storage handle user middle actor next := by
      unfold Acquires
      simp only at hwriting
      by_cases hnew : p.stage.writesNew = true
      · rw [if_pos hnew] at hwriting
        obtain ⟨actor, next, hactor, -⟩ := hwriting.of_bind
        exact ⟨actor, next, by rw [if_pos hnew]; exact of_gives_acquireActor hactor⟩
      · exact ⟨0, middle, by rw [if_neg hnew]⟩
    obtain ⟨actor, next, hacquires⟩ := hacquires
    obtain ⟨heq, rfl⟩ := h.unique (gives_writeLinked hadmits haccepts hacquires)
    cases heq
    exact ⟨other, actor, hadmits, haccepts, hacquires, rfl, rfl⟩

end Writing

/-! ### The values of the main row -/

section Values

variable {stage : Stage} {key : String} {field : UserField} (user : User) (actor : Int)

theorem get?_oldValues (textColumn : String) (hne : key ≠ textColumn) (name : String) :
    (oldValues stage key textColumn user).get? name =
      if stage.writesOld then
        if name = key then some (.int user.id)
        else if name = textColumn then some (.text user.name) else none
      else none := by
  unfold oldValues
  by_cases hold : stage.writesOld = true
  · have hdistinct : ([(key, Datum.int user.id), (textColumn, .text user.name)].map
        Prod.fst).Nodup := by simpa using hne
    rw [if_pos hold, if_pos hold, OrderedMap.get?_ofList hdistinct, lookup_entry_cons,
      lookup_entry_cons, List.lookup_nil]
  · rw [if_neg hold, if_neg hold, OrderedMap.get?_empty]

theorem get?_mainValues
    (hcolumns : [key, (field.columnNames key).text, (field.columnNames key).actor].Nodup)
    (name : String) :
    (mainValues stage key field user actor).get? name =
      if name = (field.columnNames key).actor then
        if stage.writesNew ∧ field.tempTable = none then some (.int actor) else none
      else (oldValues stage key (field.columnNames key).text user).get? name := by
  obtain ⟨hne, hactor⟩ : key ≠ (field.columnNames key).text ∧
      key ≠ (field.columnNames key).actor ∧
      (field.columnNames key).text ≠ (field.columnNames key).actor := by
    simpa [and_assoc] using hcolumns
  unfold mainValues
  by_cases hnew : stage.writesNew ∧ field.tempTable = none
  · simp only [if_pos hnew, OrderedMap.get?_put]
  · simp only [if_neg hnew]
    by_cases hname : name = (field.columnNames key).actor
    · rw [if_pos hname, get?_oldValues user _ hne, hname, if_neg hactor.1.symm,
        if_neg hactor.2.symm, ite_self]
    · rw [if_neg hname]

theorem cell_merge (row values : Row) (name : String) :
    cell (row.merge values) name = (values.get? name).getD (cell row name) := by
  unfold cell
  rw [OrderedMap.get?_merge]
  cases values.get? name <;> rfl

theorem get?_mainValues_key (hdistinct : field.HasDistinctNames key)
    (hold : stage.writesOld = true) :
    (mainValues stage key field user actor).get? key = some (.int user.id) := by
  have hne := hdistinct.columns
  simp only [List.nodup_cons, List.mem_cons, not_or] at hne
  rw [get?_mainValues user actor hdistinct.columns, if_neg hne.1.2.1, get?_oldValues user _ hne.1.1,
    if_pos hold, if_pos rfl]

theorem get?_mainValues_text (hdistinct : field.HasDistinctNames key)
    (hold : stage.writesOld = true) :
    (mainValues stage key field user actor).get? (field.columnNames key).text =
      some (.text user.name) := by
  have hne := hdistinct.columns
  simp only [List.nodup_cons, List.mem_cons, not_or] at hne
  rw [get?_mainValues user actor hdistinct.columns, if_neg hne.2.1.1, get?_oldValues user _ hne.1.1,
    if_pos hold, if_neg (Ne.symm hne.1.1), if_pos rfl]

theorem cell_actorColumn (hdistinct : field.HasDistinctNames key) (hnew : stage.writesNew = true)
    (htable : field.tempTable = none) (row : Row) :
    cell (row.merge (mainValues stage key field user actor)) (field.columnNames key).actor =
      .int actor := by
  rw [cell_merge, get?_mainValues user actor hdistinct.columns, if_pos rfl, if_pos ⟨hnew, htable⟩,
    Option.getD_some]

/-- The values leave the key of the main table alone. -/
theorem cell_mainKey (hdistinct : field.HasDistinctNames key) {t : TempTable}
    (htable : field.tempTable = some t) (row : Row) :
    cell (row.merge (mainValues stage key field user actor)) t.mainKey = cell row t.mainKey := by
  have hne := hdistinct.columns
  have hmain := hdistinct.mainKey htable
  simp only [List.nodup_cons, List.mem_cons, List.not_mem_nil, not_or] at hne hmain
  rw [cell_merge, get?_mainValues user actor hdistinct.columns, if_neg hmain.2.2.1,
    get?_oldValues user _ hne.1.1, if_neg hmain.1, if_neg hmain.2.1, ite_self, Option.getD_none]

/-- What a write gives for the main row, in order. -/
theorem entries_mainValues
    (hcolumns : [key, (field.columnNames key).text, (field.columnNames key).actor].Nodup) :
    (mainValues stage key field user actor).entries =
      (if stage.writesOld then
        [(key, .int user.id), ((field.columnNames key).text, .text user.name)] else []) ++
      if stage.writesNew ∧ field.tempTable = none then
        [((field.columnNames key).actor, .int actor)] else [] := by
  obtain ⟨hne, hactor⟩ : key ≠ (field.columnNames key).text ∧
      key ≠ (field.columnNames key).actor ∧
      (field.columnNames key).text ≠ (field.columnNames key).actor := by
    simpa [and_assoc] using hcolumns
  have hold : (oldValues stage key (field.columnNames key).text user).entries =
      if stage.writesOld then
        [(key, .int user.id), ((field.columnNames key).text, .text user.name)] else [] := by
    unfold oldValues
    split
    · exact OrderedMap.entries_ofList (by simpa using hne)
    · rfl
  unfold mainValues
  by_cases hnew : stage.writesNew ∧ field.tempTable = none
  · simp only [if_pos hnew]
    rw [OrderedMap.entries_put_of_fresh, hold]
    rw [OrderedMap.names, hold]
    split <;> simp [hactor.1.symm, hactor.2.symm]
  · simp only [if_neg hnew, List.append_nil, hold]

/-- The columns of the main row that a write gives values for, in order. -/
theorem names_mainValues
    (hcolumns : [key, (field.columnNames key).text, (field.columnNames key).actor].Nodup) :
    (mainValues stage key field user actor).names =
      (if stage.writesOld then [key, (field.columnNames key).text] else []) ++
        if stage.writesNew ∧ field.tempTable = none then [(field.columnNames key).actor] else [] := by
  rw [OrderedMap.names, entries_mainValues user actor hcolumns, List.map_append,
    apply_ite (List.map Prod.fst), apply_ite (List.map Prod.fst)]
  rfl

end Values

end Planner

end StagedColumns
