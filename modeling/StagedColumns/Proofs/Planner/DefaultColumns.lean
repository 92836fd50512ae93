import StagedColumns.Proofs.Planner.History
import StagedColumns.Proofs.Planner.MergedReadings
import StagedColumns.Proofs.Planner.WaysToWrite

/-!
# Fields without names of their own

A field that names none of its columns has three of them all the same, whatever its key is: a
reading has three outputs, and where both representations are written a write gives three values.
The columns of actor ids of two such fields are one column only where the rule for default names
makes it so (`default_columns_collide_by_rule`).
-/

set_option autoImplicit false

namespace StagedColumns

variable {ω : Type}

namespace Planner

open UserField

section Unnamed

variable {p : Planner} {key : String} {field : UserField}

/-- However a planner was used, the reading of a field that names no column has three outputs. -/
theorem names_outputs_of_namesNoColumn (hadmits : p.table.Admits key field)
    (hunnamed : field.NamesNoColumn) (storage : Storage ω) (outside : ω)
    (happenings : List (Happening ω)) :
    ∃ r later,
      (p.read key).Gives (p.history storage outside happenings).session.readings r later ∧
        r.outputs.names = [key, defaultTextColumn key, defaultActorColumn key] := by
  obtain ⟨later, hread, -⟩ :=
    gives_read hadmits (p.kept_history storage outside happenings).keepsReadings
  refine ⟨_, later, hread, ?_⟩
  rw [names_outputs_readingAt, hunnamed.columnNames_eq]
  exact eraseDups_of_nodup (nodup_defaultColumns key)

/-- Where both representations are written, a field that names no column gets a value in each of
the two old columns, and the actor id in a third one or, where there is a temp table, in the row
that is pending. -/
theorem entries_of_namesNoColumn (hadmits : p.table.Admits key field)
    (hunnamed : field.NamesNoColumn) (hboth : p.stage.writing = .both) {storage : Storage ω}
    {handle : Handle} {user : User} {state later : ω} {actor : Int} {linked : Bool}
    (haccepts : field.accepts linked = true)
    (hacquire : storage.acquire handle.domain user state = (.ok actor, later)) :
    ∃ row w, (p.writeBy storage handle key user linked).Gives state (row, w) later ∧
      row.entries =
        [(key, .int user.id), (defaultTextColumn key, .text user.name)] ++
          (if field.tempTable = none then [(defaultActorColumn key, .int actor)] else []) ∧
      w.knownColumns.entries =
        (field.tempTable.map fun t ↦ (t.actorColumn, Datum.int actor)).toList := by
  have hold : p.stage.writesOld = true := by rw [Stage.writesOld, hboth]; rfl
  have hnew : p.stage.writesNew = true := by rw [Stage.writesNew, hboth]; rfl
  have hacquires : p.Acquires storage handle user state actor later := by
    rwa [Acquires, if_pos hnew]
  refine ⟨_, _, gives_writeBy hadmits haccepts hacquires, ?_, ?_⟩
  · have hcolumns : [key, (field.columnNames key).text, (field.columnNames key).actor].Nodup := by
      rw [hunnamed.columnNames_eq]
      exact nodup_defaultColumns key
    rw [entries_mainValues user actor hcolumns, hunnamed.columnNames_eq]
    simp [hold, hnew]
  · rw [knownColumns_pendingWrite]
    cases field.tempTable <;> simp [hnew]

end Unnamed

/-- Whatever the key of a field is that names none of its columns: the columns of the user's id, of
the name and of the actor id are different. So, however the planner was used, a reading of the field
has these three outputs; and where both representations are written, either way to write that
accepts the field gives a value for the first two columns and puts the actor id into the third one,
or into the row that is pending where there is a temp table. Two keys have the same column of actor
ids exactly if they are the same or one of them, which does not end in `_user`, gives the other one
with `_user` after it. -/
theorem default_columns_collide_by_rule (p : Planner) (storage : Storage ω) (outside : ω)
    (happenings : List (Happening ω)) (key other : String) :
    [key, key ++ "_text", defaultActorColumn key].Nodup ∧
    (∀ field, p.table.Admits key field → field.NamesNoColumn →
      (∃ r later,
        (p.read key).Gives (p.history storage outside happenings).session.readings r later ∧
          r.outputs.names = [key, key ++ "_text", defaultActorColumn key]) ∧
      (p.stage.writing = .both → ∀ (handle : Handle) (user : User) state actor later linked,
        field.accepts linked = true →
        storage.acquire handle.domain user state = (.ok actor, later) →
        ∃ row w, (p.writeBy storage handle key user linked).Gives state (row, w) later ∧
          row.entries =
            [(key, .int user.id), (key ++ "_text", .text user.name)] ++
              (if field.tempTable = none then [(defaultActorColumn key, .int actor)] else []) ∧
          w.knownColumns.entries =
            (field.tempTable.map fun t ↦ (t.actorColumn, Datum.int actor)).toList)) ∧
    (defaultActorColumn key = defaultActorColumn other ↔
      key = other ∨ (¬ EndsInUser other ∧ key = other ++ "_user") ∨
        (¬ EndsInUser key ∧ other = key ++ "_user")) := by
  refine ⟨nodup_defaultColumns key, fun field hadmits hunnamed ↦ ⟨?_, ?_⟩,
    defaultActorColumn_eq_iff⟩
  · exact names_outputs_of_namesNoColumn hadmits hunnamed storage outside happenings
  · exact fun hboth handle user state actor later linked haccepts hacquire ↦
      entries_of_namesNoColumn hadmits hunnamed hboth haccepts hacquire

/-- Ada's first revision gets three values, of which the last one stands in the column that a field
with the key `rev` has for actor ids as well. -/
theorem revision_shares_actor_column :
    (revisionPlanner ⟨.both, .new, rfl⟩).table.Admits "rev_user"
        { UserField.plain with formerTempTableIn := some "1.37" } ∧
      (∃ row w later, ((revisionPlanner ⟨.both, .new, rfl⟩).writeBy Storage.ofDatabase
          ⟨"main", .sqlite, "local"⟩ "rev_user" ⟨7, "Ada", .null⟩ true).Gives ⟨fun _ ↦ []⟩ (row, w)
          later ∧
        row.entries =
          [("rev_user", .int 7), ("rev_user_text", .text "Ada"), ("rev_actor", .int 1)]) ∧
      defaultActorColumn "rev_user" = defaultActorColumn "rev" := by
  have hadmits : (revisionPlanner ⟨.both, .new, rfl⟩).table.Admits "rev_user"
      { UserField.plain with formerTempTableIn := some "1.37" } := ⟨rfl, rfl⟩
  obtain ⟨-, hcolumns, hshared⟩ := default_columns_collide_by_rule
    (revisionPlanner ⟨.both, .new, rfl⟩) Storage.ofDatabase ⟨fun _ ↦ []⟩ [] "rev_user" "rev"
  obtain ⟨-, hwrite⟩ := hcolumns _ hadmits ⟨.inl rfl, .inl rfl⟩
  obtain ⟨row, w, hgives, hentries, -⟩ := hwrite rfl ⟨"main", .sqlite, "local"⟩ ⟨7, "Ada", .null⟩
    ⟨fun _ ↦ []⟩ 1 _ true rfl rfl
  exact ⟨hadmits, ⟨row, w, _, hgives, hentries⟩, hshared.mpr (.inr (.inl ⟨by decide, rfl⟩))⟩

end Planner

end StagedColumns
