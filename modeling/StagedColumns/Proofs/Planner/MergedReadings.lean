import StagedColumns.Proofs.Planner.ActorSource
import StagedColumns.Proofs.Planner.KeptReadings
import StagedColumns.Proofs.Query.Merge

/-!
# Merged readings of keys

The aliases of a key are made from the key alone, in two ways that never give the same alias, so
keys that are not the same have no alias in common, whatever the keys are. The names of the outputs
are those of the columns of both representations, whatever the stage. So readings of any keys, also
of repeated ones, can be merged.
-/

set_option autoImplicit false

namespace StagedColumns

namespace Planner

/-! ### The reading of one key -/

theorem tempAlias_injective {key other : String} (h : tempAlias key = tempAlias other) :
    key = other :=
  (String.append_right_inj _).mp h

theorem actorAlias_injective {key other : String} (h : actorAlias key = actorAlias other) :
    key = other :=
  (String.append_right_inj _).mp h

/-- The aliases of a key. -/
def aliases (stage : Stage) (key : String) (field : UserField) : List String :=
  match stage.reading, field.tempTable with
  | .old, _ => []
  | .new, none => [actorAlias key]
  | .new, some _ => [tempAlias key, actorAlias key]

theorem names_source_readingAt (stage : Stage) (key : String) (field : UserField) :
    (readingAt stage key field).source.tables.names = aliases stage key field ∧
      (readingAt stage key field).source.joins.names = aliases stage key field := by
  unfold readingAt oldReading newReading actorSource aliases
  cases stage.reading with
  | old => exact ⟨rfl, rfl⟩
  | new =>
    cases field.tempTable with
    | none => exact ⟨rfl, rfl⟩
    | some table =>
      have hdistinct : [tempAlias key, actorAlias key].Nodup := by
        simpa using tempAlias_ne_actorAlias key key
      constructor
      · exact (OrderedMap.names_put _ _ _).trans (eraseDups_of_nodup hdistinct)
      · exact (OrderedMap.names_put _ _ _).trans (eraseDups_of_nodup hdistinct)

theorem mem_aliases {stage : Stage} {key shortName : String} {field : UserField}
    (h : shortName ∈ aliases stage key field) :
    shortName = tempAlias key ∨ shortName = actorAlias key := by
  unfold aliases at h
  split at h
  · exact absurd h List.not_mem_nil
  · exact .inr (List.mem_singleton.mp h)
  · simpa using h

/-- There are aliases only in the new representation. -/
theorem reading_of_mem_aliases {stage : Stage} {key shortName : String} {field : UserField}
    (h : shortName ∈ aliases stage key field) : stage.reading = .new := by
  unfold aliases at h
  cases hreading : stage.reading with
  | old =>
    rw [hreading] at h
    exact absurd h List.not_mem_nil
  | new => rfl

/-- Keys that are not the same have no alias in common, whatever the stages. -/
theorem eq_of_alias {stage later : Stage} {key other shortName : String} {field more : UserField}
    (h : shortName ∈ aliases stage key field) (hother : shortName ∈ aliases later other more) :
    key = other := by
  rcases mem_aliases h with rfl | rfl <;> rcases mem_aliases hother with heq | heq
  · exact tempAlias_injective heq
  · exact absurd heq (tempAlias_ne_actorAlias key other)
  · exact absurd heq.symm (tempAlias_ne_actorAlias other key)
  · exact actorAlias_injective heq

theorem names_outputs_readingAt (stage : Stage) (key : String) (field : UserField) :
    (readingAt stage key field).outputs.names =
      [key, (field.columnNames key).text, (field.columnNames key).actor].eraseDups := by
  unfold readingAt oldReading newReading
  cases stage.reading <;> exact OrderedMap.names_putAll .empty _

end Planner

/-! ### The readings of several keys -/

/-- The field of a key; a plain one for a key that is refused. -/
def FieldTable.fieldOf (t : FieldTable) (key : String) : UserField :=
  (t.resolve key).toOption.getD .plain

theorem FieldTable.Admits.fieldOf_eq {t : FieldTable} {key : String} {field : UserField}
    (h : t.Admits key field) : t.fieldOf key = field := by
  rw [fieldOf, h.resolved]
  rfl

namespace Planner

/-- The reading of a key, if it passes the gate. -/
def readingOf (p : Planner) (key : String) : Reading :=
  readingAt p.stage key (p.table.fieldOf key)

/-- A reading is given only for a key that passes the gate. -/
theorem admits_of_gives_read {p : Planner} {key : String} {m later : Memo Reading} {r : Reading}
    (hm : p.KeepsReadings m) (h : (p.read key).Gives m r later) :
    p.table.Admits key (p.table.fieldOf key) ∧ r = p.readingOf key ∧ p.KeepsReadings later := by
  obtain ⟨trace, h⟩ := h
  have hreads := p.reads_read key hm
  rw [h] at hreads
  cases hreads with
  | kept hadmits =>
    rw [readingOf, hadmits.fieldOf_eq]
    exact ⟨hadmits, rfl, hm⟩
  | made hadmits =>
    rw [readingOf, hadmits.fieldOf_eq]
    exact ⟨hadmits, rfl, hm.put hadmits.resolved⟩

theorem of_gives_mapM_read {p : Planner} {keys : List String} {m later : Memo Reading}
    {readings : List Reading} (hm : p.KeepsReadings m)
    (h : (keys.mapM p.read).Gives m readings later) :
    (∀ key ∈ keys, p.table.Admits key (p.table.fieldOf key)) ∧
      readings = keys.map p.readingOf := by
  induction keys generalizing m later readings with
  | nil =>
    obtain ⟨rfl, -⟩ := h.unique (.pure [] m)
    exact ⟨nofun, rfl⟩
  | cons key rest ih =>
    rw [List.mapM_cons] at h
    obtain ⟨r, middle, hread, h⟩ := h.of_bind
    obtain ⟨others, final, hrest, h⟩ := h.of_bind
    obtain ⟨hadmits, rfl, hmiddle⟩ := admits_of_gives_read hm hread
    obtain ⟨hall, rfl⟩ := ih hmiddle hrest
    obtain ⟨rfl, -⟩ := h.unique (.pure _ final)
    exact ⟨List.forall_mem_cons.mpr ⟨hadmits, hall⟩, rfl⟩

theorem exists_gives_mapM_read {p : Planner} {keys : List String} {m : Memo Reading}
    (hm : p.KeepsReadings m) (hkeys : ∀ key ∈ keys, p.table.Admits key (p.table.fieldOf key)) :
    ∃ later, (keys.mapM p.read).Gives m (keys.map p.readingOf) later := by
  induction keys generalizing m with
  | nil => exact ⟨m, .pure [] m⟩
  | cons key rest ih =>
    obtain ⟨hkey, hrest⟩ := List.forall_mem_cons.mp hkeys
    obtain ⟨middle, hread, hmiddle⟩ := gives_read hkey hm
    obtain ⟨later, hlater⟩ := ih hmiddle hrest
    rw [List.mapM_cons]
    exact ⟨later, .bind hread (.bind hlater (.pure _ later))⟩

/-- The readings of keys have no alias in common. -/
theorem apart_readingOf (p : Planner) (keys : List String) : Reading.Apart keys p.readingOf where
  joined _ := (names_source_readingAt ..).2.trans (names_source_readingAt ..).1.symm
  eq_of_alias _ _ h hother := by
    rw [readingOf, (names_source_readingAt ..).1] at h hother
    exact eq_of_alias h hother

theorem names_outputs_mergeAll_readingOf (p : Planner) (keys : List String) :
    (Reading.mergeAll (keys.map p.readingOf)).outputs.names =
      (keys.flatMap fun key ↦ (p.readingOf key).outputs.names).eraseDups := by
  rw [Reading.outputs_mergeAll, OrderedMap.names_mergeAll, List.map_map, List.flatMap_map]
  rfl

/-- Merging the readings of any keys loses nothing, also where keys are repeated. What was read
before makes no difference, since a planner in use keeps only readings that it would make. Each
alias of each key stands for the key's own table, joined as the key's reading joins it; the text
that adds the tables is made of the texts of the keys in the order of their first occurrences; the
outputs are those of all keys, each with the expression of the last key that has it. The names of
the outputs and their order do not depend on the stage. -/
theorem merged_readings_lose_nothing {p : Planner} {m later : Memo Reading} {keys : List String}
    {readings : List Reading} (hm : p.KeepsReadings m)
    (h : (keys.mapM p.read).Gives m readings later) :
    ∃ own : String → Reading, readings = keys.map own ∧
      (∀ first rest, readings = first :: rest →
        Reading.mergeAll readings = rest.foldl Reading.merge first) ∧
      (∀ key ∈ keys, ∀ shortName table, (own key).source.tables.get? shortName = some table →
        ∃ join, (own key).source.joins.get? shortName = some join ∧
          (Reading.mergeAll readings).source.tables.get? shortName = some table ∧
          (Reading.mergeAll readings).source.joins.get? shortName = some join) ∧
      (Reading.mergeAll readings).source.render =
        " ".intercalate ((keys.eraseDups.map fun key ↦ (own key).source.render).filter (· ≠ "")) ∧
      (Reading.mergeAll readings).outputs.names =
        (keys.flatMap fun key ↦ (own key).outputs.names).eraseDups ∧
      (∀ name e, (Reading.mergeAll readings).outputs.get? name = some e ↔
        ∃ front key back, keys = front ++ key :: back ∧ (own key).outputs.get? name = some e ∧
          ∀ other ∈ back, (own other).outputs.get? name = none) ∧
      ∀ (stage : Stage) (kept : Memo Reading), KeepsReadings ⟨stage, p.table⟩ kept →
        ∃ others final, (keys.mapM (read ⟨stage, p.table⟩)).Gives kept others final ∧
          (Reading.mergeAll others).outputs.names = (Reading.mergeAll readings).outputs.names := by
  obtain ⟨hadmits, rfl⟩ := of_gives_mapM_read hm h
  have hapart := p.apart_readingOf keys
  refine ⟨p.readingOf, rfl, ?_, fun key hkey shortName table ↦ hapart.exists_join hkey,
    hapart.render_mergeAll, p.names_outputs_mergeAll_readingOf keys, fun name e ↦ ?_,
    fun stage kept hkept ↦ ?_⟩
  · intro first rest hreadings
    rw [hreadings, Reading.mergeAll_cons]
  · rw [Reading.outputs_mergeAll, List.map_map]
    exact OrderedMap.get?_mergeAll_eq_some_iff name e
  · obtain ⟨final, hfinal⟩ := exists_gives_mapM_read hkept hadmits
    refine ⟨_, final, hfinal, ?_⟩
    rw [names_outputs_mergeAll_readingOf, names_outputs_mergeAll_readingOf]
    simp only [readingOf, names_outputs_readingAt]

/-- A planner for a schema with an archive, whose actors are kept in a temp table. -/
def historyPlanner : Planner :=
  let archived := { UserField.plain with
    tempTable := some ⟨"archive_actor", "aa_archive", "aa_actor", "ar_id", .empty⟩ }
  ⟨⟨.both, .new, rfl⟩, ⟨OrderedMap.ofList [("ar_user", archived)], true, "core", "planner"⟩⟩

/-- A query that reads the archive, the revisions and the archive again joins each of them once. -/
theorem repeated_archive_joined_once :
    historyPlanner.KeepsReadings .empty ∧
      ∃ readings later, (["ar_user", "rev_user", "ar_user"].mapM historyPlanner.read).Gives .empty
          readings later ∧
        (Reading.mergeAll readings).source.render =
          "JOIN archive_actor temp_ar_user ON temp_ar_user.aa_archive = ar_id " ++
          "JOIN actor actor_ar_user ON actor_ar_user.actor_id = temp_ar_user.aa_actor " ++
          "JOIN actor actor_rev_user ON actor_rev_user.actor_id = rev_actor" := by
  have hkeys : ∀ key ∈ ["ar_user", "rev_user", "ar_user"],
      historyPlanner.table.Admits key (historyPlanner.table.fieldOf key) := by
    simp only [List.forall_mem_cons]
    exact ⟨⟨rfl, rfl⟩, ⟨rfl, rfl⟩, ⟨rfl, rfl⟩, nofun⟩
  obtain ⟨later, hgives⟩ := exists_gives_mapM_read historyPlanner.keepsReadings_empty hkeys
  obtain ⟨own, hown, -, -, hrender, -⟩ :=
    merged_readings_lose_nothing historyPlanner.keepsReadings_empty hgives
  simp only [List.map_cons, List.map_nil, List.cons.injEq] at hown
  refine ⟨historyPlanner.keepsReadings_empty, _, later, hgives, hrender.trans ?_⟩
  have honce : ["ar_user", "rev_user", "ar_user"].eraseDups = ["ar_user", "rev_user"] := by decide
  rw [honce, List.map_cons, List.map_cons, ← hown.1, ← hown.2.1]
  rfl

end Planner

end StagedColumns
