import StagedColumns.Field.Table
import StagedColumns.Proofs.Operation
import StagedColumns.Proofs.Sql.Lexer

/-!
# Fields that pass the gate

A key passes if it has a field that was not removed; a deprecated field passes with a warning, which
changes nothing. All other keys are refused. The names of a field are plain where a condition reads
them as columns, and different where they name columns of one table.
-/

set_option autoImplicit false

namespace StagedColumns

variable {ω : Type}

/-- The key has the field, which is still there. -/
structure FieldTable.Admits (t : FieldTable) (key : String) (field : UserField) : Prop where
  resolved : t.resolve key = .ok field
  kept : field.removedIn = none

theorem FieldTable.Admits.unique {t : FieldTable} {key : String} {field other : UserField}
    (h : t.Admits key field) (hother : t.Admits key other) : field = other :=
  Except.ok.inj (h.resolved.symm.trans hother.resolved)

/-- A key has the field that is in the table, or else a plain one where other keys are allowed. -/
theorem FieldTable.resolve_eq (t : FieldTable) (key : String) :
    t.resolve key =
      match t.fields.get? key with
      | some field => .ok field
      | none => if t.othersAllowed then .ok .plain else .error (.unknownKey key t.owner) := by
  unfold resolve lookup
  cases t.fields.get? key with
  | some field => rfl
  | none => by_cases hallowed : t.othersAllowed <;> simp [hallowed]

/-- A key that is not in the table has a plain field where such keys are allowed. -/
theorem FieldTable.admits_assumed {t : FieldTable} {key : String}
    (hother : t.fields.get? key = none) (hallowed : t.othersAllowed = true) :
    t.Admits key .plain := by
  refine ⟨?_, rfl⟩
  simp only [resolve_eq, hother, hallowed, if_true]

theorem FieldTable.gives_warn (t : FieldTable) (what version component key : String) (state : ω) :
    (t.warn what version component key).Gives state () state :=
  .bind (.sign _ _) (.sign _ _)

/-- The signs of a key that passes the gate: a deprecated field is reported once, in the log and as
a warning. -/
def FieldTable.gateSigns (t : FieldTable) (key : String) (field : UserField) : List Signal :=
  match field.deprecatedIn with
  | some version =>
    ((t.warn (t.owner ++ " for '" ++ key ++ "'") version (t.componentOf field) key :
      Operation Signal Unit Unit) ()).trace
  | none => []

theorem FieldTable.Admits.pass_eq {t : FieldTable} {key : String} {field : UserField}
    (h : t.Admits key field) (state : ω) :
    t.pass key state = ⟨.ok field, state, t.gateSigns key field⟩ := by
  have hresolve : (Operation.ofExcept (t.resolve key) : Operation Signal ω UserField) state =
      ⟨.ok field, state, []⟩ := by
    rw [h.resolved]
    rfl
  rw [pass, Operation.bind_of_ok hresolve, h.kept, gateSigns]
  cases field.deprecatedIn <;> rfl

theorem FieldTable.Admits.gives_pass {t : FieldTable} {key : String} {field : UserField}
    (h : t.Admits key field) (state : ω) : (t.pass key).Gives state field state :=
  ⟨t.gateSigns key field, h.pass_eq state⟩

/-- What comes of a key at the gate. -/
def FieldTable.gate (t : FieldTable) (key : String) : Outcome Signal Unit UserField :=
  t.pass key ()

/-- The gate refuses the key: it is not in a table that allows no others, or its field was removed.
-/
inductive FieldTable.Refused (t : FieldTable) (key : String) : Failure → Prop
  | unknown (hmissing : t.fields.get? key = none) (hclosed : t.othersAllowed = false) :
      Refused t key (.unknownKey key t.owner)
  | removed {field : UserField} {version : String} (hresolved : t.resolve key = .ok field)
      (hremoved : field.removedIn = some version) :
      Refused t key (.fieldRemoved key version (t.componentOf field) t.owner)

theorem FieldTable.refused_or_admits (t : FieldTable) (key : String) :
    (∃ failure, t.Refused key failure) ∨ ∃ field, t.Admits key field := by
  cases hresolve : t.resolve key with
  | ok field =>
    cases hremoved : field.removedIn with
    | none => exact .inr ⟨field, hresolve, hremoved⟩
    | some version => exact .inl ⟨_, .removed hresolve hremoved⟩
  | error failure =>
    rw [resolve_eq] at hresolve
    cases hmissing : t.fields.get? key with
    | some field =>
      rw [hmissing] at hresolve
      cases hresolve
    | none =>
      by_cases hallowed : t.othersAllowed
      · simp [hmissing, hallowed] at hresolve
      · exact .inl ⟨_, .unknown hmissing (Bool.eq_false_iff.mpr hallowed)⟩

/-- A key that is refused gives no sign. -/
theorem FieldTable.Refused.pass_eq {t : FieldTable} {key : String} {failure : Failure}
    (h : t.Refused key failure) (state : ω) : t.pass key state = ⟨.error failure, state, []⟩ := by
  cases h with
  | unknown hmissing hclosed =>
    have hfailed : (Operation.ofExcept (t.resolve key) : Operation Signal ω UserField) state =
        ⟨.error (.unknownKey key t.owner), state, []⟩ := by
      rw [resolve_eq, hmissing, hclosed]
      rfl
    rw [pass, Operation.bind_of_error hfailed]
  | @removed field version hresolved hremoved =>
    have hfound : (Operation.ofExcept (t.resolve key) : Operation Signal ω UserField) state =
        ⟨.ok field, state, []⟩ := by
      rw [hresolved]
      rfl
    rw [pass, Operation.bind_of_ok hfound, hremoved]
    rfl

theorem FieldTable.exists_pass_refused {t : FieldTable} {key : String}
    (h : ∀ field, ¬t.Admits key field) :
    ∃ failure, ∀ {ω : Type} (state : ω), t.pass key state = ⟨.error failure, state, []⟩ := by
  obtain ⟨failure, hrefused⟩ := (t.refused_or_admits key).resolve_right (not_exists.mpr h)
  exact ⟨failure, hrefused.pass_eq⟩

/-- All names of columns that the field has under the key are plain. -/
structure UserField.HasPlainNames (field : UserField) (key : String) : Prop where
  plain_key : Sql.isPlainName key = true
  plain_text : Sql.isPlainName (field.columnNames key).text = true
  plain_actor : Sql.isPlainName (field.columnNames key).actor = true
  plain_table {t : TempTable} : field.tempTable = some t →
    Sql.isPlainName t.keyColumn = true ∧ Sql.isPlainName t.actorColumn = true ∧
      Sql.isPlainName t.mainKey = true

/-- The names of columns that stand side by side in a table are different. -/
structure UserField.HasDistinctNames (field : UserField) (key : String) : Prop where
  columns : [key, (field.columnNames key).text, (field.columnNames key).actor].Nodup
  mainKey {t : TempTable} : field.tempTable = some t →
    t.mainKey ∉ [key, (field.columnNames key).text, (field.columnNames key).actor]
  table {t : TempTable} : field.tempTable = some t →
    (t.keyColumn :: t.actorColumn :: t.copies.names).Nodup

end StagedColumns
