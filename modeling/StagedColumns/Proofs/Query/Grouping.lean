import StagedColumns.Proofs.Query.Merge

/-!
# Merging in any grouping

Readings that stand in a row can be merged two at a time in any grouping. Whatever the grouping, the
result is the merge from left to right, with all entries in the same order
(`Grouping.merged_eq_mergeAll`). This rests on the laws of merging two readings: the second one is
written over the first, a name keeps the place where it first occurs, and where they share no alias
their texts stand one after the other.
-/

set_option autoImplicit false

namespace StagedColumns

variable {α : Type}

/-- The entries of the second map are written over those of the first: a name has the later value,
if there is one, and stands where it first occurs. -/
structure OrderedMap.WrittenOver (m later written : OrderedMap α) : Prop where
  value (name : String) : written.get? name = (later.get? name).or (m.get? name)
  names : written.names = (m.names ++ later.names).eraseDups

theorem OrderedMap.writtenOver_merge (m later : OrderedMap α) :
    m.WrittenOver later (m.merge later) :=
  ⟨m.get?_merge later, m.names_merge later⟩

/-- A way of grouping readings that stand in a row. -/
inductive Grouping
  | nothing
  | one (r : Reading)
  | pair (front back : Grouping)

namespace Grouping

/-- The readings in their order. -/
def readings : Grouping → List Reading
  | nothing => []
  | one r => [r]
  | pair front back => front.readings ++ back.readings

/-- The readings merged as they are grouped. -/
def merged : Grouping → Reading
  | nothing => .empty
  | one r => r
  | pair front back => front.merged.merge back.merged

theorem merged_eq_mergeAll (g : Grouping) : g.merged = Reading.mergeAll g.readings := by
  induction g with
  | nothing => rfl
  | one r => exact r.empty_merge.symm
  | pair front back hfront hback =>
    calc front.merged.merge back.merged
      _ = (Reading.mergeAll front.readings).merge (Reading.mergeAll back.readings) := by
        rw [hfront, hback]
      _ = Reading.mergeAll (front.readings ++ back.readings) :=
        (Reading.mergeAll_append _ _).symm

end Grouping

namespace Reading

/-- Merging is associative, the empty reading makes no difference on either side, and neither does a
reading that is merged with itself. Tables, joins and outputs of the second reading are written over
those of the first. If the readings have no alias in common, the text that adds the tables of both
is made of the two texts with a blank between them, or is the one that is not empty. So readings in
a row give the same however they are grouped. -/
theorem merging_ignores_grouping (r later last : Reading) (g : Grouping) :
    (r.merge later).merge last = r.merge (later.merge last) ∧
      empty.merge r = r ∧ r.merge empty = r ∧ r.merge r = r ∧
      r.source.tables.WrittenOver later.source.tables (r.merge later).source.tables ∧
      r.source.joins.WrittenOver later.source.joins (r.merge later).source.joins ∧
      r.outputs.WrittenOver later.outputs (r.merge later).outputs ∧
      (List.Disjoint r.source.aliases later.source.aliases →
        (r.merge later).source.render =
          " ".intercalate ([r.source.render, later.source.render].filter (· ≠ ""))) ∧
      g.merged = mergeAll g.readings :=
  ⟨r.merge_assoc later last, r.empty_merge, r.merge_empty, r.merge_self,
    OrderedMap.writtenOver_merge _ _, OrderedMap.writtenOver_merge _ _,
    OrderedMap.writtenOver_merge _ _, Tables.render_merge, g.merged_eq_mergeAll⟩

/-- The actors of a column, joined under an alias. -/
def actorsOf (shortName column : String) : Reading :=
  ⟨Tables.empty.add shortName "actor" (.inner (.qualified shortName "actor_id") (.column column)),
    OrderedMap.ofList [(column, .column column)]⟩

/-- The actors of the archive and of the revisions have aliases of their own. -/
theorem archive_and_revisions_side_by_side :
    List.Disjoint (actorsOf "actor_ar_user" "ar_actor").source.aliases
        (actorsOf "actor_rev_user" "rev_actor").source.aliases ∧
      ((actorsOf "actor_ar_user" "ar_actor").merge
          (actorsOf "actor_rev_user" "rev_actor")).source.render =
        "JOIN actor actor_ar_user ON actor_ar_user.actor_id = ar_actor " ++
        "JOIN actor actor_rev_user ON actor_rev_user.actor_id = rev_actor" := by
  have happart : List.Disjoint (actorsOf "actor_ar_user" "ar_actor").source.aliases
      (actorsOf "actor_rev_user" "rev_actor").source.aliases := by
    unfold List.Disjoint
    decide
  obtain ⟨-, -, -, -, -, -, -, hrender, -⟩ :=
    merging_ignores_grouping (actorsOf "actor_ar_user" "ar_actor")
      (actorsOf "actor_rev_user" "rev_actor") empty .nothing
  exact ⟨happart, (hrender happart).trans rfl⟩

end Reading

end StagedColumns
