import StagedColumns.Proofs.Field.DefaultNames
import StagedColumns.Proofs.Planner.GivenSearch
import StagedColumns.Proofs.Planner.MergedReadings
import StagedColumns.Proofs.Query.Scoping
import StagedColumns.Rehearsal

/-!
# Fragments are well scoped

The temp table of a key is tied to the main table, and the actor table to the temp table or, where
there is none, to the main table. So what a planner gives is well scoped as long as no name has a
point in it, since a point would make a name refer to something else. Readings that have an alias in
common are the same, whatever the stages they were made at, so merging any of them keeps the order:
the temp table of a key stays before its actor table, however often the key is repeated.
-/

set_option autoImplicit false

namespace StagedColumns

/-! ### Names without a point -/

/-- No name of a column that the field is configured with has a point in it. -/
structure UserField.PointFreeNames (field : UserField) : Prop where
  text {name : String} : field.textColumn = some name → PointFree name
  actor {name : String} : field.actorColumn = some name → PointFree name
  table {t : TempTable} : field.tempTable = some t →
    PointFree t.keyColumn ∧ PointFree t.actorColumn ∧ PointFree t.mainKey

namespace UserField

variable {key : String} {field : UserField}

theorem pointFreeNames_plain : plain.PointFreeNames :=
  ⟨nofun, nofun, nofun⟩

theorem pointFree_nameOr {default : String} {given : Option String} (hdefault : PointFree default)
    (hgiven : ∀ {name : String}, given = some name → PointFree name) :
    PointFree (nameOr default given) := by
  unfold nameOr
  split
  · exact hdefault
  · exact hdefault
  · exact hgiven rfl

theorem pointFree_defaultActorColumn (hkey : PointFree key) :
    PointFree (defaultActorColumn key) := by
  have hactor : PointFree "_actor" := by decide
  rcases defaultActorColumn_cases key with ⟨front, hfront, hname⟩ | hname
  · rw [hname]
    exact (hfront ▸ hkey).of_append_left.append hactor
  · rw [hname]
    exact hkey.append hactor

theorem PointFreeNames.textColumn (h : field.PointFreeNames) (hkey : PointFree key) :
    PointFree (field.columnNames key).text :=
  pointFree_nameOr (hkey.append (by decide)) h.text

theorem PointFreeNames.actorColumn (h : field.PointFreeNames) (hkey : PointFree key) :
    PointFree (field.columnNames key).actor :=
  pointFree_nameOr (pointFree_defaultActorColumn hkey) h.actor

end UserField

/-- The fields of the table have no names with a point in them. -/
def FieldTable.PointFreeNames (t : FieldTable) : Prop :=
  ∀ key field, t.fields.get? key = some field → field.PointFreeNames

/-- A key that is not in the table has default names. -/
theorem FieldTable.PointFreeNames.of_admits {t : FieldTable} (h : t.PointFreeNames) {key : String}
    {field : UserField} (hadmits : t.Admits key field) : field.PointFreeNames := by
  have hresolved := hadmits.resolved
  rw [resolve_eq] at hresolved
  split at hresolved
  · next hconfigured =>
    cases hresolved
    exact h key field hconfigured
  · by_cases hallowed : t.othersAllowed
    · rw [if_pos hallowed] at hresolved
      cases hresolved
      exact UserField.pointFreeNames_plain
    · rw [if_neg hallowed] at hresolved
      cases hresolved

/-- The tables are well scoped, each alternative is the test of one column, which refers to what is
there, and the condition combines the alternatives. -/
structure Search.WellScoped (s : Search) (d : Dialect) : Prop where
  source : s.source.WellScoped
  alternatives {name text : String} : s.alternatives.get? name = some text →
    ∃ column values, d.testColumn column (.list values) = .ok text ∧
      RefersWithin s.source.tables.names column
  condition : Planner.anyOf s.alternatives.entries = .ok s.condition

namespace Planner

variable {ω : Type} {key : String} {field : UserField}

/-! ### Readings -/

theorem pointFree_tempAlias (hkey : PointFree key) : PointFree (tempAlias key) :=
  PointFree.append (by decide) hkey

theorem pointFree_actorAlias (hkey : PointFree key) : PointFree (actorAlias key) :=
  PointFree.append (by decide) hkey

/-- The temp table is tied to the main table, and the actor id is found in one of the two. -/
theorem wellScoped_actorTables (hkey : PointFree key) (hfield : field.PointFreeNames) :
    (actorTables key field).WellScoped ∧
      RefersWithin (actorTables key field).tables.names (actorExpression key field).render := by
  unfold actorTables actorExpression actorSource
  cases htable : field.tempTable with
  | none => exact ⟨Tables.wellScoped_empty, refersWithin_column (hfield.actorColumn hkey) []⟩
  | some t =>
    obtain ⟨hkeyColumn, hactorColumn, hmainKey⟩ := hfield.table htable
    have hshort := pointFree_tempAlias hkey
    constructor
    · exact Tables.wellScoped_empty.add List.not_mem_nil t.name
        (tiesTo_inner hshort hkeyColumn (refersWithin_column hmainKey []))
    · exact refersWithin_qualified List.mem_cons_self hshort hactorColumn

/-- The outputs of a key refer to its columns in the main table, to its tables, or to nothing. -/
theorem wellScoped_readingAt (stage : Stage) (hkey : PointFree key)
    (hfield : field.PointFreeNames) : (readingAt stage key field).WellScoped := by
  have htext := hfield.textColumn hkey
  unfold readingAt
  cases stage.reading with
  | old =>
    refine ⟨Tables.wellScoped_empty, fun {name e} he ↦ ?_⟩
    have hmem := OrderedMap.mem_of_get?_ofList he
    simp only [List.mem_cons, Prod.mk.injEq, List.not_mem_nil, or_false] at hmem
    rcases hmem with ⟨-, rfl⟩ | ⟨-, rfl⟩ | ⟨-, rfl⟩
    · exact .inr (refersWithin_column hkey _)
    · exact .inr (refersWithin_column htext _)
    · exact .inl rfl
  | new =>
    obtain ⟨hsource, hactor⟩ := wellScoped_actorTables hkey hfield
    have hfresh := actorAlias_not_mem_actorTables key field
    have hshort := pointFree_actorAlias hkey
    have hnames := (actorTables key field).tables.names_put_of_fresh hfresh actorTable
    show (newReading key (field.columnNames key) field.tempTable).WellScoped
    rw [newReading_eq]
    refine ⟨hsource.add hfresh actorTable (tiesTo_inner hshort (by decide) hactor),
      fun {name e} he ↦ ?_⟩
    show _ ∨ RefersWithin ((actorTables key field).tables.put (actorAlias key) actorTable).names _
    rw [hnames]
    have hown : actorAlias key ∈ (actorTables key field).tables.names ++ [actorAlias key] :=
      List.mem_append_right _ (List.mem_singleton_self _)
    have hmem := OrderedMap.mem_of_get?_ofList he
    simp only [List.mem_cons, Prod.mk.injEq, List.not_mem_nil, or_false] at hmem
    rcases hmem with ⟨-, rfl⟩ | ⟨-, rfl⟩ | ⟨-, rfl⟩
    · exact .inr (refersWithin_qualified hown hshort (by decide))
    · exact .inr (refersWithin_qualified hown hshort (by decide))
    · exact .inr (hactor.mono (List.subset_append_left _ _))

/-! ### Merged readings -/

/-- A planner of the table gives the reading for a key without a point, at some stage and after
whatever it has read before. -/
def GivesReading (t : FieldTable) (r : Reading) : Prop :=
  ∃ stage key kept later, PointFree key ∧ KeepsReadings ⟨stage, t⟩ kept ∧
    (read ⟨stage, t⟩ key).Gives kept r later

theorem GivesReading.exists_eq {t : FieldTable} {r : Reading} (h : GivesReading t r) :
    ∃ stage key field, PointFree key ∧ t.Admits key field ∧ r = readingAt stage key field := by
  obtain ⟨stage, key, kept, later, hkey, hkept, hread⟩ := h
  obtain ⟨hadmits, rfl, -⟩ := admits_of_gives_read hkept hread
  exact ⟨stage, key, _, hkey, hadmits, rfl⟩

/-- Readings that have an alias in common are the same, also at different stages. -/
theorem apart_of_givesReading {t : FieldTable} {readings : List Reading}
    (h : ∀ r ∈ readings, GivesReading t r) : Reading.Apart readings id where
  joined {r} hr := by
    obtain ⟨stage, key, field, -, -, rfl⟩ := (h r hr).exists_eq
    obtain ⟨htables, hjoins⟩ := names_source_readingAt stage key field
    exact hjoins.trans htables.symm
  eq_of_alias {r other shortName} hr hother hname hshared := by
    obtain ⟨stage, key, field, -, hadmits, rfl⟩ := (h r hr).exists_eq
    obtain ⟨later, also, more, -, hmore, rfl⟩ := (h other hother).exists_eq
    rw [id, (names_source_readingAt stage key field).1] at hname
    rw [id, (names_source_readingAt later also more).1] at hshared
    obtain rfl := eq_of_alias hname hshared
    obtain rfl := hadmits.unique hmore
    unfold readingAt
    rw [reading_of_mem_aliases hname, reading_of_mem_aliases hshared]

theorem wellScoped_mergeAll {t : FieldTable} (ht : t.PointFreeNames) {readings : List Reading}
    (h : ∀ r ∈ readings, GivesReading t r) : (Reading.mergeAll readings).WellScoped := by
  have hmerged := (apart_of_givesReading h).wellScoped_mergeAll fun r hr ↦ by
    obtain ⟨stage, key, field, hkey, hadmits, rfl⟩ := (h r hr).exists_eq
    exact wellScoped_readingAt stage hkey (ht.of_admits hadmits)
  rwa [List.map_id] at hmerged

/-! ### Searches -/

/-- A search has the tables for the actor id only where it tests the actor id. -/
theorem wellScoped_of_givenBy {p : Planner} {storage : Storage ω} {handle : Handle}
    {among : Datum} {includeIds : Bool} {state : ω} {s : Search} {users : List User}
    (h : p.GivenBy storage handle key among includeIds state s field users) (hkey : PointFree key)
    (hfield : field.PointFreeNames) : s.WellScoped handle.dialect := by
  obtain ⟨source, condition, alternatives⟩ := s
  obtain ⟨-, -, hfound, hcondition⟩ := h
  simp only at hfound
  cases hfound with
  | old hreading hfound =>
    refine ⟨Tables.wellScoped_empty, fun {name text} htext ↦ ?_, hcondition⟩
    obtain ⟨idValues, nameValues, ids, names, hids, hnames, hentries⟩ :=
      of_oldAlternatives_eq_ok hfound
    have hmem := (OrderedMap.get?_eq_some_iff_mem _ _ _).mp htext
    rw [hentries] at hmem
    rcases List.mem_append.mp hmem with hid | hname
    · exact ⟨key, _, (of_mem_alternative hids hid).2, refersWithin_column hkey _⟩
    · exact ⟨_, _, (of_mem_alternative hnames hname).2,
        refersWithin_column (hfield.textColumn hkey) _⟩
  | new hreading hfind hfound =>
    rcases of_newAlternatives_eq_ok hfound with ⟨-, rfl, hnone⟩ | ⟨rfl, test, hone, htest⟩
    · refine ⟨Tables.wellScoped_empty, fun {name text} htext ↦ ?_, hcondition⟩
      have hmem := (OrderedMap.get?_eq_some_iff_mem _ _ _).mp htext
      rw [hnone] at hmem
      cases hmem
    · obtain ⟨hsource, hactor⟩ := wellScoped_actorTables hkey hfield
      refine ⟨hsource, fun {name text} htext ↦ ?_, hcondition⟩
      have hmem := (OrderedMap.get?_eq_some_iff_mem _ _ _).mp htext
      rw [hone] at hmem
      cases List.mem_singleton.mp hmem
      exact ⟨_, _, htest, hactor⟩

/-- Where no key and no configured name of a column has a point in it, all fragments are well
scoped: what any readings of keys of one table are merged to, in any order and with repetitions, at
any stages and after any use of the planners, and every search that is given. So the tables are
added by their joins alone, each of which ties a table to what stands before it, and no output and
no condition refers to a table that is not there. -/
theorem fragments_well_scoped {t : FieldTable} (ht : t.PointFreeNames) :
    (∀ readings : List Reading, (∀ r ∈ readings, GivesReading t r) →
      (Reading.mergeAll readings).WellScoped ∧
        (Reading.mergeAll readings).source.render =
          (Reading.mergeAll readings).source.renderJoins) ∧
      ∀ (stage : Stage) (storage : Storage ω) (handle : Handle) (key : String) (among : Datum)
        (includeIds : Bool) (state later : ω) (s : Search), PointFree key →
        (search ⟨stage, t⟩ storage handle key among includeIds).Gives state s later →
        s.WellScoped handle.dialect ∧ s.source.render = s.source.renderJoins := by
  constructor
  · intro readings hreadings
    have hscoped := wellScoped_mergeAll ht hreadings
    exact ⟨hscoped, hscoped.source.render_eq⟩
  · intro stage storage handle key among includeIds state later s hkey hgives
    obtain ⟨-, field, users, hgiven⟩ := of_gives_search hgives
    have hscoped := wellScoped_of_givenBy hgiven hkey (ht.of_admits hgiven.admits)
    exact ⟨hscoped, hscoped.source.render_eq⟩

/-- A rehearsal in which one user is an actor. -/
def oneActor : Rehearsal :=
  ⟨.ofList [("local", .ofList [("Ada", 3)])], [], .empty⟩

/-- The archive is read twice and the revisions once; then a user is looked for in the archive. -/
theorem archive_and_revisions_well_scoped :
    historyPlanner.table.PointFreeNames ∧
      (∀ r ∈ ["ar_user", "rev_user", "ar_user"].map historyPlanner.readingOf,
        GivesReading historyPlanner.table r) ∧
      (Reading.mergeAll
        (["ar_user", "rev_user", "ar_user"].map historyPlanner.readingOf)).WellScoped ∧
      ∃ s, (historyPlanner.search Storage.rehearsal ⟨"main", .sqlite, "local"⟩ "ar_user"
          (.user 7 "Ada" .null) true).Gives oneActor s oneActor ∧
        s.condition = "temp_ar_user.aa_actor = 3" ∧ s.WellScoped .sqlite := by
  have htable : historyPlanner.table.PointFreeNames := by
    intro key field hfield
    have hmem := OrderedMap.mem_of_get?_ofList hfield
    cases List.mem_singleton.mp hmem
    refine ⟨nofun, nofun, fun {t} ht ↦ ?_⟩
    cases ht
    decide
  have hadmits (key : String) (hkey : key ∈ ["ar_user", "rev_user", "ar_user"]) :
      historyPlanner.table.Admits key (historyPlanner.table.fieldOf key) ∧ PointFree key := by
    simp only [List.mem_cons, List.not_mem_nil, or_false] at hkey
    rcases hkey with rfl | rfl | rfl
    · exact ⟨⟨rfl, rfl⟩, by decide⟩
    · exact ⟨⟨rfl, rfl⟩, by decide⟩
    · exact ⟨⟨rfl, rfl⟩, by decide⟩
  have hreadings : ∀ r ∈ ["ar_user", "rev_user", "ar_user"].map historyPlanner.readingOf,
      GivesReading historyPlanner.table r := by
    intro r hr
    obtain ⟨key, hkey, rfl⟩ := List.mem_map.mp hr
    obtain ⟨hfield, hpoint⟩ := hadmits key hkey
    obtain ⟨later, hread, -⟩ := gives_read hfield historyPlanner.keepsReadings_empty
    exact ⟨_, key, .empty, later, hpoint, historyPlanner.keepsReadings_empty, hread⟩
  obtain ⟨hmerged, hsearches⟩ := fragments_well_scoped htable
  have hsearch : (historyPlanner.search Storage.rehearsal ⟨"main", .sqlite, "local"⟩ "ar_user"
      (.user 7 "Ada" .null) true).Gives oneActor _ oneActor := ⟨_, rfl⟩
  exact ⟨htable, hreadings, (hmerged _ hreadings).1, _, hsearch, rfl,
    (hsearches _ _ _ _ _ _ _ _ _ (by decide) hsearch).1⟩

end Planner

end StagedColumns
