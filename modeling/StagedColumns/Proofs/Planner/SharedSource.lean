import StagedColumns.Proofs.Planner.GivenSearch
import StagedColumns.Proofs.Planner.Scoping

/-!
# Readings and searches share their source

A reading is kept and a search is made anew each time, but both find the actor id of a key in the
same place. The tables of a search are those of the key's reading without the actor table, so that a
query which has both joins nothing twice (`Tables.PartOf`), and what a search tests is the output of
the reading for the actor column. A search tests it for the actor ids found that are not zero.
-/

set_option autoImplicit false

namespace StagedColumns

/-- What the tables have, the whole has under the same alias, with the same join. -/
structure Tables.PartOf (part whole : Tables) : Prop where
  tables {shortName table : String} : part.tables.get? shortName = some table →
    whole.tables.get? shortName = some table
  joins {shortName : String} {join : Join} : part.joins.get? shortName = some join →
    whole.joins.get? shortName = some join

namespace Tables

theorem partOf_empty (whole : Tables) : empty.PartOf whole :=
  ⟨nofun, nofun⟩

theorem partOf_add {t : Tables} {shortName : String} (htables : shortName ∉ t.tables.names)
    (hjoins : shortName ∉ t.joins.names) (table : String) (join : Join) :
    t.PartOf (t.add shortName table join) where
  tables {name other} hname := by
    have hne : name ≠ shortName := by
      rintro rfl
      exact htables ((OrderedMap.mem_names_iff _ _).mpr (Option.isSome_of_eq_some hname))
    rw [add, OrderedMap.get?_put, if_neg hne, hname]
  joins {name other} hname := by
    have hne : name ≠ shortName := by
      rintro rfl
      exact hjoins ((OrderedMap.mem_names_iff _ _).mpr (Option.isSome_of_eq_some hname))
    rw [add, OrderedMap.get?_put, if_neg hne, hname]

/-- Nothing is joined twice where a part is merged into the whole. -/
theorem PartOf.merge_eq {part whole : Tables} (h : part.PartOf whole) :
    whole.merge part = whole := by
  rw [merge, OrderedMap.merge_of_contained fun _ _ ↦ h.tables,
    OrderedMap.merge_of_contained fun _ _ ↦ h.joins]

theorem PartOf.renderTable_eq {part whole : Tables} (h : part.PartOf whole) {shortName : String}
    {join : Join} (hjoin : part.joins.get? shortName = some join) (table : String) :
    whole.renderTable shortName table = part.renderTable shortName table := by
  rw [renderTable, renderTable, hjoin, h.joins hjoin]

end Tables

namespace Planner

variable {ω : Type}

theorem actorsOf_eq (found : User → Option Int) (users : List User) :
    actorsOf found users = (users.filterMap found).filter (· ≠ 0) := by
  rw [actorsOf, List.filter_filterMap]

theorem joins_actorTables (key : String) (field : UserField) :
    (actorTables key field).joins.names = (actorTables key field).tables.names := by
  unfold actorTables actorSource
  cases field.tempTable <;> rfl

theorem source_readingAt_of_new (key : String) (field : UserField) {stage : Stage}
    (hreading : stage.reading = .new) :
    (readingAt stage key field).source = (actorTables key field).add (actorAlias key) actorTable
      (.inner (.qualified (actorAlias key) "actor_id") (actorExpression key field)) := by
  unfold readingAt
  simp only [hreading, newReading_eq]

theorem actorTables_partOf_readingAt (key : String) (field : UserField) {stage : Stage}
    (hreading : stage.reading = .new) :
    (actorTables key field).PartOf (readingAt stage key field).source := by
  have hfresh := actorAlias_not_mem_actorTables key field
  rw [source_readingAt_of_new key field hreading]
  exact Tables.partOf_add hfresh (joins_actorTables key field ▸ hfresh) actorTable _

/-- The actor id is an output of the reading, under the name of its column. -/
theorem get?_outputs_readingAt (key : String) (field : UserField) {stage : Stage}
    (hreading : stage.reading = .new) :
    (readingAt stage key field).outputs.get? (field.columnNames key).actor =
      some (actorExpression key field) := by
  unfold readingAt
  simp only [hreading, newReading_eq]
  exact OrderedMap.get?_put_self _ _ _

/-- The tables for the actor id are added by the first clause of a reading, if there are any. -/
theorem render_actorTables (key : String) (field : UserField) {stage : Stage}
    (hreading : stage.reading = .new) :
    (actorTables key field).render = "" ∨
      ∃ entry rest, (readingAt stage key field).source.tables.entries = entry :: rest ∧
        (actorTables key field).render =
          (readingAt stage key field).source.renderTable entry.1 entry.2 := by
  have hpart := actorTables_partOf_readingAt key field hreading
  have hentries := (actorTables key field).tables.entries_put_of_fresh
    (actorAlias_not_mem_actorTables key field) actorTable
  have hsource := congrArg (·.tables.entries) (source_readingAt_of_new key field hreading)
  have hall := hsource.trans hentries
  cases htable : field.tempTable with
  | none =>
    left
    unfold actorTables actorSource
    rw [htable]
    rfl
  | some t =>
    right
    have hone : (actorTables key field).tables.entries = [(tempAlias key, t.name)] := by
      unfold actorTables actorSource
      rw [htable]
      rfl
    have hjoin : (actorTables key field).joins.get? (tempAlias key) =
        some (.inner (.qualified (tempAlias key) t.keyColumn) (.column t.mainKey)) := by
      unfold actorTables actorSource
      rw [htable]
      exact OrderedMap.get?_put_self _ _ _
    rw [hone] at hall
    refine ⟨_, _, hall, ?_⟩
    rw [hpart.renderTable_eq hjoin, Tables.render, hone]
    exact String.intercalate_singleton

section Found

variable {p : Planner} {storage : Storage ω} {handle : Handle} {key : String} {field : UserField}
  {users : List User} {includeIds : Bool} {state : ω} {source : Tables}
  {found : List (String × String)}

/-- The tables of a search are those for the actor id, which only the new representation needs. -/
theorem Found.source_eq (h : p.Found storage handle key field users includeIds state source found) :
    source = .empty ∨ p.stage.reading = .new ∧ source = actorTables key field := by
  cases h with
  | old => exact .inl rfl
  | new hreading hfind hfound =>
    rcases of_newAlternatives_eq_ok hfound with ⟨-, hnone, -⟩ | ⟨hsource, -⟩
    · exact .inl hnone
    · exact .inr ⟨hreading, hsource⟩

/-- The alternative of the actor id tests the ids that the roster knows and that are not zero. -/
theorem Found.exists_actors
    (h : p.Found storage handle key field users includeIds state source found) {text : String}
    (hmem : ("actor", text) ∈ found) :
    p.stage.reading = .new ∧ ∃ actors : User → Option Int,
      (∀ u ∈ users, storage.find handle.domain u state = .ok (actors u)) ∧
        handle.dialect.testColumn (actorExpression key field).render
          (.list (((users.filterMap actors).filter (· ≠ 0)).map .int)) = .ok text := by
  cases h with
  | old hreading hfound =>
    -- the alternatives of the old representation have other names
    obtain ⟨idValues, nameValues, ids, names, hids, hnames, rfl⟩ := of_oldAlternatives_eq_ok hfound
    rcases List.mem_append.mp hmem with hid | hname
    · exact absurd (of_mem_alternative hids hid).1 (by decide)
    · exact absurd (of_mem_alternative hnames hname).1 (by decide)
  | new hreading hfind hfound =>
    rcases of_newAlternatives_eq_ok hfound with ⟨-, -, rfl⟩ | ⟨-, test, rfl, htest⟩
    · cases hmem
    · cases List.mem_singleton.mp hmem
      rw [actorsOf_eq] at htest
      exact ⟨hreading, _, hfind, htest⟩

end Found

/-- A search of a key and the key's reading share their source, however the reading came about. The
tables of the search are tables of the reading, so a query with both joins nothing twice, and they
are added by the first clause of the reading. The alternative of the actor id is the condition that
the output of the reading for the actor column puts on the ids found, of which an id of zero is left
out. In the old representation there are no tables. -/
theorem search_shares_source {p : Planner} {storage : Storage ω} {handle : Handle} {key : String}
    {among : Datum} {includeIds : Bool} {m kept : Memo Reading} {state later : ω} {r : Reading}
    {s : Search} (hm : p.KeepsReadings m) (hread : (p.read key).Gives m r kept)
    (hsearch : (p.search storage handle key among includeIds).Gives state s later) :
    s.source.PartOf r.source ∧ r.source.merge s.source = r.source ∧
      (s.source.render = "" ∨
        ∃ entry rest, r.source.tables.entries = entry :: rest ∧
          s.source.render = r.source.renderTable entry.1 entry.2) ∧
      (∀ text, s.alternatives.get? "actor" = some text →
        ∃ field users e, ∃ found : User → Option Int, p.table.Admits key field ∧
          User.listOf among = .ok users ∧
          (∀ u ∈ users, storage.find handle.domain u state = .ok (found u)) ∧
          r.outputs.get? (field.columnNames key).actor = some e ∧
          handle.dialect.conditionOf (.record [(e.render,
            .list (((users.filterMap found).filter (· ≠ 0)).map .int))]) .and =
              .ok (.text text)) ∧
      (p.stage.reading = .old → r.source = .empty ∧ s.source = .empty) := by
  obtain ⟨hadmitted, rfl, -⟩ := admits_of_gives_read hm hread
  obtain ⟨-, field, users, hadmits, hlisted, hfound, -⟩ := of_gives_search hsearch
  obtain rfl := hadmits.unique hadmitted
  unfold readingOf
  have hpart : s.source.PartOf (readingAt p.stage key (p.table.fieldOf key)).source := by
    rcases hfound.source_eq with hnone | ⟨hreading, hsource⟩
    · exact hnone ▸ Tables.partOf_empty _
    · exact hsource ▸ actorTables_partOf_readingAt key _ hreading
  refine ⟨hpart, hpart.merge_eq, ?_, fun text htext ↦ ?_, fun hreading ↦ ?_⟩
  · rcases hfound.source_eq with hnone | ⟨hreading, hsource⟩
    · exact .inl (hnone ▸ rfl)
    · exact hsource ▸ render_actorTables key _ hreading
  · have hmem := (OrderedMap.get?_eq_some_iff_mem _ _ _).mp htext
    obtain ⟨hreading, actors, hfind, htest⟩ := hfound.exists_actors hmem
    exact ⟨_, users, _, actors, hadmits, hlisted, hfind, get?_outputs_readingAt key _ hreading,
      Dialect.conditionOf_entry htest .and⟩
  · constructor
    · unfold readingAt
      rw [hreading]
      rfl
    · rcases hfound.source_eq with hnone | ⟨hnew, -⟩
      · exact hnone
      · rw [hreading] at hnew
        cases hnew

/-- An archive is read, and a user is looked for in it. -/
theorem archive_joined_once :
    historyPlanner.KeepsReadings .empty ∧
      ∃ r kept s, (historyPlanner.read "ar_user").Gives .empty r kept ∧
        (historyPlanner.search Storage.rehearsal ⟨"main", .sqlite, "local"⟩ "ar_user"
          (.user 7 "Ada" .null) true).Gives oneActor s oneActor ∧
        s.alternatives.get? "actor" = some "temp_ar_user.aa_actor = 3" ∧
        r.source.merge s.source = r.source := by
  have hread : (historyPlanner.read "ar_user").Gives .empty _ _ := ⟨_, rfl⟩
  have hsearch : (historyPlanner.search Storage.rehearsal ⟨"main", .sqlite, "local"⟩ "ar_user"
      (.user 7 "Ada" .null) true).Gives oneActor _ oneActor := ⟨_, rfl⟩
  exact ⟨historyPlanner.keepsReadings_empty, _, _, _, hread, hsearch, rfl,
    (search_shares_source historyPlanner.keepsReadings_empty hread hsearch).2.1⟩

/-- A rehearsal in which one of two actors has the id zero. -/
def actorZero : Rehearsal :=
  ⟨.ofList [("local", .ofList [("Zero", 0), ("Ada", 1)])], [], .empty⟩

/-- An actor id of zero is found, but it is not looked for. -/
theorem actor_zero_left_out :
    ∃ r kept s, (read ⟨.only .new, ⟨.empty, true, "core", "planner"⟩⟩ "rev_user").Gives .empty r
        kept ∧
      (search ⟨.only .new, ⟨.empty, true, "core", "planner"⟩⟩ Storage.rehearsal
        ⟨"main", .sqlite, "local"⟩ "rev_user"
        (.list [.user 7 "Zero" .null, .user 8 "Ada" .null]) true).Gives actorZero s actorZero ∧
      Storage.rehearsal.find "local" ⟨7, "Zero", .null⟩ actorZero = .ok (some 0) ∧
      Storage.rehearsal.find "local" ⟨8, "Ada", .null⟩ actorZero = .ok (some 1) ∧
      r.outputs.get? "rev_actor" = some (.column "rev_actor") ∧
      s.alternatives.get? "actor" = some "rev_actor = 1" ∧
      Dialect.conditionOf .sqlite (.record [("rev_actor", .list [.int 0, .int 1])]) .and =
        .ok (.text "rev_actor IN (0, 1)") :=
  ⟨_, _, _, ⟨_, rfl⟩, ⟨_, rfl⟩, rfl, rfl, rfl, rfl, rfl⟩

end Planner

end StagedColumns
