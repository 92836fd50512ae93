import StagedColumns.Proofs.Planner.ActorSource
import StagedColumns.Proofs.Planner.Store
import StagedColumns.Proofs.Query.Evaluation

/-!
# What a reading sees

A reading of a stored row sees one scope: where the new representation is read, the temp table if
there is one adds the row that links the key to the actor, and the actor table adds the row of that
actor.
-/

set_option autoImplicit false

namespace StagedColumns

open Sql

variable {ω : Type}

/-! ### Outputs -/

/-- The text of the expression is read as something that has the expression's value. -/
def Expression.ReadAs (d : Dialect) (e : Expression) : Prop :=
  ∃ o, parseOperand d e.render = some o ∧ ∀ s : Scope, o.eval s.value = s.value e

theorem Expression.readAs_null (d : Dialect) : Expression.null.ReadAs d :=
  ⟨.value .null, by cases d <;> rfl, fun _ ↦ rfl⟩

theorem Expression.readAs_of_lex {d : Dialect} {e : Expression}
    (h : lex d e.render.toList = some [.column e]) : e.ReadAs d :=
  ⟨.column e, by rw [parseOperand, h], fun _ ↦ rfl⟩

theorem Scope.outputs?_eq {d : Dialect} {outputs : List (String × Expression)}
    (h : ∀ entry ∈ outputs, entry.2.ReadAs d) (s : Scope) :
    s.outputs? d outputs = some (outputs.map fun entry ↦ (entry.1, s.value entry.2)) := by
  induction outputs with
  | nil => rfl
  | cons entry rest ih =>
    obtain ⟨o, ho, hvalue⟩ := h entry List.mem_cons_self
    have hrest := ih fun other hother ↦ h other (List.mem_cons_of_mem _ hother)
    unfold outputs? at hrest ⊢
    rw [List.mapM_cons, hrest]
    simp [ho, hvalue]

theorem Reading.rows?_eq {r : Reading} {d : Dialect} {db : Database} {main : Row} {s : Scope}
    (hscopes : r.source.scopes? d db main = some [s])
    (houtputs : ∀ entry ∈ r.outputs.entries, entry.2.ReadAs d) :
    r.rows? d db main = some [r.outputs.entries.map fun entry ↦ (entry.1, s.value entry.2)] := by
  unfold rows?
  rw [hscopes]
  simp [Scope.outputs?_eq houtputs]

/-! ### The scope of a stored row -/

theorem Scope.value_join_self {s : Scope} {shortName : String}
    (hfresh : shortName ∉ s.joined.map Prod.fst) (row : Row) (name : String) :
    (s.join shortName row).value (.qualified shortName name) = cell row name := by
  have hlookup : (s.joined ++ [(shortName, row)]).lookup shortName = some row := by
    rw [List.lookup_append, lookup_eq_none_of_fresh hfresh]
    simp
  rw [value, join]
  simp [hlookup]

/-- A table that is joined later changes no expression that has a value already. -/
theorem Scope.value_join_of_ne {s : Scope} {shortName other : String} (h : other ≠ shortName)
    (row : Row) (name : String) :
    (s.join shortName row).value (.qualified other name) = s.value (.qualified other name) := by
  have hlookup : (s.joined ++ [(shortName, row)]).lookup other = s.joined.lookup other := by
    rw [List.lookup_append, lookup_entry_cons, if_neg h]
    simp
  rw [value, join, value, hlookup]

namespace Planner

/-- A query for the actor id of a stored row sees one scope, and there the id is the stored one. -/
theorem exists_actorScope {stage : Stage} {key : String} {field : UserField} {main : String}
    {before db : Database} {full : Row} {mainKey : Datum} {actor : Int}
    (hplain : field.HasPlainNames key) (hnew : stage.writesNew = true)
    (hstores : db.Stores before stage field main full mainKey actor)
    (hactor : field.tempTable = none → cell full (field.columnNames key).actor = .int actor)
    (hheld : ∀ t, field.tempTable = some t → cell full t.mainKey = mainKey) (d : Dialect) :
    ∃ s, (actorTables key field).scopes? d db full = some [s] ∧
      s.value (actorExpression key field) = .int actor ∧
      s.joined.map Prod.fst = (actorTables key field).tables.names ∧
      actorAlias key ∉ (actorTables key field).tables.names := by
  unfold actorTables actorExpression actorSource
  cases htable : field.tempTable with
  | none => exact ⟨⟨full, []⟩, rfl, hactor htable, rfl, List.not_mem_nil⟩
  | some t =>
    obtain ⟨stored, hstored, hcell⟩ := hstores.linked htable hnew
    have hself (row : Row) (name : String) :
        ((⟨full, []⟩ : Scope).join (tempAlias key) row).value (.qualified (tempAlias key) name) =
          cell row name := Scope.value_join_self List.not_mem_nil row name
    refine ⟨(⟨full, []⟩ : Scope).join (tempAlias key) stored, ?_, ?_, rfl, ?_⟩
    · refine Tables.scopes?_add_equal List.not_mem_nil (Tables.scopes?_empty d db full)
        (parse_tempTie d hplain htable) ?_
      simp only [hself]
      rw [← hheld t htable] at hstored
      exact hstored
    · exact (hself stored t.actorColumn).trans hcell
    · intro hmem
      exact tempAlias_ne_actorAlias key key (List.mem_singleton.mp hmem).symm

end Planner

end StagedColumns
