import StagedColumns.Planner.Search
import StagedColumns.Planner.Write
import StagedColumns.Proofs.Operation

/-!
# Entering a field

Every request enters the field that it is about: its key passes the gate, and a linked write has to
be let through for the field as well (`Planner.enter`). What a write or a search does after that
gives only signs of routine, whatever the state and whether it fails or not (`Planner.Enters`):
collaborators are called, and it is reported that an actor id was acquired or a search was built.
-/

set_option autoImplicit false

namespace StagedColumns

variable {ω α : Type}

/-- The signal is a call, or reports that an actor id was acquired or a search was built. -/
def Signal.isRoutine : Signal → Bool
  | .call _ => true
  | .event e => e.name = "actor_id_acquired" || e.name = "where_built"
  | .deprecation _ => false

/-- Whatever the state, the operation gives only signs of routine. -/
def Operation.Routine (op : Operation Signal ω α) : Prop :=
  op.Signs (·.isRoutine = true)

namespace Planner

/-- Enters the field of a key, to be written together with its temp table or not. -/
def enter (p : Planner) (key : String) (linked : Bool) : Operation Signal ω UserField :=
  p.table.pass key >>= fun field ↦
    (if linked then p.passLinked key field else pure ()) >>= fun _ ↦ pure field

/-- The operation enters the field of the key first, and is routine after that. -/
def Enters (p : Planner) (key : String) (linked : Bool) (op : Operation Signal ω α) : Prop :=
  ∃ rest : UserField → Operation Signal ω α, op = p.enter key linked >>= rest ∧
    ∀ field, (rest field).Routine

variable {p : Planner} {key : String} {rest : UserField → Operation Signal ω α}

theorem Enters.of_gate (hrest : ∀ field, (rest field).Routine) :
    p.Enters key false (p.table.pass key >>= rest) := by
  refine ⟨rest, ?_, hrest⟩
  simp only [enter, Bool.false_eq_true, if_false, pure_bind, bind_pure]

theorem Enters.of_passLinked (hrest : ∀ field, (rest field).Routine) :
    p.Enters key true
      (p.table.pass key >>= fun field ↦ p.passLinked key field >>= fun _ ↦ rest field) := by
  refine ⟨rest, ?_, hrest⟩
  simp only [enter, if_true, bind_assoc, pure_bind]

/-! ### The requests -/

theorem routine_acquireActor (storage : Storage ω) (handle : Handle) (key : String) (user : User) :
    (acquireActor storage handle key user).Routine := by
  refine .bind (.sign rfl) fun _ ↦ .bind (fun _ s hs ↦ List.mem_singleton.mp hs ▸ rfl)
    fun actor ↦ ?_
  exact .bind (.sign rfl) fun _ ↦ .pure _

theorem enters_write (p : Planner) (storage : Storage ω) (handle : Handle) (key : String)
    (user : User) : p.Enters key false (p.write storage handle key user) := by
  refine .of_gate fun field ↦ ?_
  split
  · exact .fail _
  · simp only
    split
    · exact .bind (routine_acquireActor storage handle key user) fun _ ↦ .pure _
    · exact .pure _

theorem enters_writeLinked (p : Planner) (storage : Storage ω) (handle : Handle) (key : String)
    (user : User) : p.Enters key true (p.writeLinked storage handle key user) := by
  refine .of_passLinked fun field ↦ ?_
  simp only
  split
  · refine .bind (routine_acquireActor storage handle key user) fun actor ↦ ?_
    split <;> exact .pure _
  · split <;> exact .pure _

/-- How a value that is no user is refused, once the field was looked at. -/
def refuseValue (p : Planner) (handle : Handle) (value : Datum) : Operation Signal ω α :=
  if p.stage.writesOld then Operation.fail (.noAttribute value.typeName "id")
  else do
    Storage.askRoster handle.domain
    Operation.fail (.noAttribute value.typeName "name")

theorem routine_refuseValue (p : Planner) (handle : Handle) (value : Datum) :
    (p.refuseValue handle value : Operation Signal ω α).Routine := by
  unfold refuseValue
  split
  · exact .fail _
  · exact .bind (.sign rfl) fun _ ↦ .fail _

theorem refuseWrite_direct (p : Planner) (handle : Handle) (key : String) (value : Datum) :
    (p.refuseWrite handle key false value : Operation Signal ω α) =
      p.table.pass key >>= fun field ↦
        if field.tempTable.isSome then Operation.fail (.wrongWrite key linkedWrite)
        else p.refuseValue handle value := by
  unfold refuseWrite
  refine congrArg _ (funext fun field ↦ ?_)
  by_cases htable : field.tempTable.isSome = true
  · rw [if_pos htable]
    simp only [Bool.false_eq_true, if_false, if_pos htable]
    rfl
  · rw [if_neg htable]
    simp only [Bool.false_eq_true, if_false, if_neg htable]
    rfl

theorem refuseWrite_linked (p : Planner) (handle : Handle) (key : String) (value : Datum) :
    (p.refuseWrite handle key true value : Operation Signal ω α) =
      p.table.pass key >>= fun field ↦ p.passLinked key field >>= fun _ ↦
        p.refuseValue handle value :=
  rfl

theorem enters_refuseWrite (p : Planner) (handle : Handle) (key : String) (linked : Bool)
    (value : Datum) :
    p.Enters key linked (p.refuseWrite handle key linked value : Operation Signal ω α) := by
  cases linked with
  | true =>
    rw [refuseWrite_linked]
    exact .of_passLinked fun field ↦ p.routine_refuseValue handle value
  | false =>
    rw [refuseWrite_direct]
    refine .of_gate fun field ↦ ?_
    split
    · exact .fail _
    · exact p.routine_refuseValue handle value

theorem routine_findActors (storage : Storage ω) (domain : String) (users : List User) :
    (findActors storage domain users).Routine := by
  induction users with
  | nil => exact .pure _
  | cons user rest ih =>
    refine .bind (fun _ s hs ↦ List.mem_singleton.mp hs ▸ rfl) fun found ↦ .bind ih fun others ↦ ?_
    cases found <;> exact .pure _

theorem routine_alternatives (p : Planner) (storage : Storage ω) (handle : Handle) (key : String)
    (field : UserField) (users : List User) (includeIds : Bool) :
    (p.alternatives storage handle key field users includeIds).Routine := by
  unfold alternatives
  simp only
  split
  · exact .bind (.ofExcept _) fun _ ↦ .pure _
  · split
    · exact .pure _
    · exact .bind (.sign rfl) fun _ ↦ .bind (routine_findActors storage handle.domain users)
        fun _ ↦ .ofExcept _

theorem enters_search (p : Planner) (storage : Storage ω) (handle : Handle) (key : String)
    (users : Datum) (includeIds : Bool) :
    p.Enters key false (p.search storage handle key users includeIds) :=
  .of_gate fun field ↦ .bind (.ofExcept _) fun users ↦
    .bind (p.routine_alternatives storage handle key field users includeIds) fun _ ↦
      .bind (.ofExcept _) fun _ ↦ .bind (.sign rfl) fun _ ↦ .pure _

end Planner

end StagedColumns
