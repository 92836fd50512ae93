import StagedColumns.Proofs.Planner.Entry

/-!
# Operations that make no reading

A planner reports each reading that it makes, and nothing else that it does is reported like that:
entering a field makes no reading, and signs of routine report none, so neither writes nor searches
make a reading, whatever the state and whether they fail or not.
-/

set_option autoImplicit false

namespace StagedColumns

variable {ω α : Type}

/-- What the signal says of the key, if it says that a reading was made. -/
def Signal.madeKey? : Signal → Option (Option Datum)
  | .event e => if e.name = "join_built" then some (e.details.get? "field") else none
  | _ => none

/-- Whatever the state, the operation makes no reading. -/
def Operation.Quiet (op : Operation Signal ω α) : Prop :=
  op.Signs (·.madeKey? = none)

theorem Signal.madeKey?_of_isRoutine {s : Signal} (h : s.isRoutine = true) : s.madeKey? = none := by
  cases s with
  | call c => rfl
  | deprecation text => rfl
  | event e =>
    rw [isRoutine, Bool.or_eq_true, decide_eq_true_iff, decide_eq_true_iff] at h
    refine if_neg fun hname ↦ ?_
    simp [hname] at h

theorem FieldTable.quiet_warn (t : FieldTable) (what version component key : String) :
    (t.warn what version component key : Operation Signal ω Unit).Quiet :=
  .bind (.sign rfl) fun _ ↦ .sign rfl

theorem FieldTable.quiet_pass (t : FieldTable) (key : String) :
    (t.pass key : Operation Signal ω UserField).Quiet := by
  refine .bind (.ofExcept _) fun field ↦ ?_
  cases field.removedIn with
  | some version => exact .fail _
  | none =>
    cases field.deprecatedIn with
    | some version => exact .bind (t.quiet_warn _ _ _ _) fun _ ↦ .pure _
    | none => exact .bind (Operation.Signs.pure ()) fun _ ↦ .pure _

namespace Planner

theorem quiet_passLinked (p : Planner) (key : String) (field : UserField) :
    (p.passLinked key field : Operation Signal ω Unit).Quiet := by
  unfold passLinked
  split
  · exact p.table.quiet_warn _ _ _ _
  · exact .pure _
  · exact .fail _

theorem quiet_enter (p : Planner) (key : String) (linked : Bool) :
    (p.enter key linked : Operation Signal ω UserField).Quiet := by
  refine .bind (p.table.quiet_pass key) fun field ↦ .bind ?_ fun _ ↦ .pure _
  cases linked with
  | true => exact p.quiet_passLinked key field
  | false => exact .pure _

theorem Enters.quiet {p : Planner} {key : String} {linked : Bool} {op : Operation Signal ω α}
    (h : p.Enters key linked op) : op.Quiet := by
  obtain ⟨rest, rfl, hrest⟩ := h
  exact .bind (p.quiet_enter key linked) fun field ↦
    (hrest field).mono fun _ ↦ Signal.madeKey?_of_isRoutine

end Planner

end StagedColumns
