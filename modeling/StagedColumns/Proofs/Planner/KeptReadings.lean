import StagedColumns.Planner.Read
import StagedColumns.Proofs.Field.Gate
import StagedColumns.Proofs.Memo

/-!
# Kept readings

A planner keeps the readings that it made, and a kept reading is the one that it would make again.
`Reads` lists all that can come of reading a key, whatever was read before: the gate refuses the
key, or the key's reading is given, which then either was kept or is made, reported and kept.
-/

set_option autoImplicit false

namespace StagedColumns

variable {ω : Type}

namespace Planner

/-- Every reading that is kept is the one that the planner would make. -/
def KeepsReadings (p : Planner) (m : Memo Reading) : Prop :=
  ∀ key r, m.get? key = some r →
    ∃ field, p.table.resolve key = .ok field ∧ r = readingAt p.stage key field

theorem keepsReadings_empty (p : Planner) : p.KeepsReadings .empty :=
  nofun

theorem KeepsReadings.put {p : Planner} {m : Memo Reading} (hm : p.KeepsReadings m) {key : String}
    {field : UserField} (hresolved : p.table.resolve key = .ok field) :
    p.KeepsReadings ⟨m.kept.put key (readingAt p.stage key field)⟩ :=
  Memo.forall_get?_put hm ⟨field, hresolved, rfl⟩

/-- The sign that the reading of a key was made. -/
def madeSign (p : Planner) (key : String) (r : Reading) : Signal :=
  .event (.of "join_built" .debug
    [("field", key), ("stage", p.stage.label), ("tables", .list (r.source.tables.names.map .text))])

theorem makeReading_eq {p : Planner} {key : String} {field : UserField}
    (hresolved : p.table.resolve key = .ok field) (state : ω) :
    p.makeReading key state =
      ⟨.ok (readingAt p.stage key field), state,
        [p.madeSign key (readingAt p.stage key field)]⟩ := by
  unfold makeReading
  rw [hresolved]
  rfl

/-- What can come of reading a key with a memo. -/
inductive Reads (p : Planner) (key : String) (m : Memo Reading) :
    Outcome Signal (Memo Reading) Reading → Prop
  | refused {failure : Failure} (hrefused : ∀ field, ¬p.table.Admits key field)
      (hgate : p.table.gate key = ⟨.error failure, (), []⟩) : Reads p key m ⟨.error failure, m, []⟩
  | kept {field : UserField} (hadmits : p.table.Admits key field)
      (hkept : m.get? key = some (readingAt p.stage key field)) :
      Reads p key m ⟨.ok (readingAt p.stage key field), m, p.table.gateSigns key field⟩
  | made {field : UserField} (hadmits : p.table.Admits key field) (hmissing : m.get? key = none) :
      Reads p key m ⟨.ok (readingAt p.stage key field),
        ⟨m.kept.put key (readingAt p.stage key field)⟩,
        p.table.gateSigns key field ++ [p.madeSign key (readingAt p.stage key field)]⟩

/-- Reading a key passes the gate first, whether the reading was kept or not. -/
theorem reads_read (p : Planner) (key : String) {m : Memo Reading} (hm : p.KeepsReadings m) :
    p.Reads key m (p.read key m) := by
  by_cases hadmitted : ∃ field, p.table.Admits key field
  · obtain ⟨field, hadmits⟩ := hadmitted
    rw [read, Operation.bind_of_ok (hadmits.pass_eq m)]
    cases hkept : m.get? key with
    | some r =>
      obtain ⟨other, hother, rfl⟩ := hm key r hkept
      obtain rfl : field = other := Except.ok.inj (hadmits.resolved.symm.trans hother)
      rw [Memo.getOrMake_of_kept hkept, List.append_nil]
      exact .kept hadmits hkept
    | none =>
      have hsettle : Memo.settle key (readingAt p.stage key field) m =
          (⟨.ok (readingAt p.stage key field), ⟨m.kept.put key (readingAt p.stage key field)⟩, []⟩ :
            Outcome Signal _ _) := by
        rw [Memo.settle, hkept]
      rw [Memo.getOrMake_of_missing hkept, Operation.bind_of_ok (makeReading_eq hadmits.resolved m),
        hsettle]
      exact .made hadmits hkept
  · obtain ⟨failure, hpass⟩ := FieldTable.exists_pass_refused (not_exists.mp hadmitted)
    rw [read, Operation.bind_of_error (hpass m)]
    exact .refused (not_exists.mp hadmitted) (hpass ())

/-- A reading is the one of the key's field, whether it was kept or is made now, and what is kept
afterwards is right as well. -/
theorem gives_read {p : Planner} {key : String} {field : UserField}
    (hadmits : p.table.Admits key field) {m : Memo Reading} (hm : p.KeepsReadings m) :
    ∃ later, (p.read key).Gives m (readingAt p.stage key field) later ∧ p.KeepsReadings later := by
  have hreads := p.reads_read key hm
  generalize hout : p.read key m = out at hreads
  cases hreads with
  | refused hrefused => exact absurd hadmits (hrefused field)
  | kept hother => exact hadmits.unique hother ▸ ⟨m, ⟨_, hout⟩, hm⟩
  | made hother => exact hadmits.unique hother ▸ ⟨_, ⟨_, hout⟩, hm.put hother.resolved⟩

end Planner

end StagedColumns
