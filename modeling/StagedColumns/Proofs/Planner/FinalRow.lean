import StagedColumns.Proofs.Planner.Completion

/-!
# The row that a pending write stores

The row is put together from the primary key, the actor id and the repeated values, and a later one
overwrites an earlier one in the same column. So the repeated values are always there, and nothing
stands in a column that the temp table does not have (`get?_finalRow`). Whether the primary key and
the actor id are there as well depends on the names of the columns, which a configuration may choose
alike: they are exactly where the columns that share a name are to hold one value
(`stored_row_as_built_iff`).
-/

set_option autoImplicit false

namespace StagedColumns

variable {ω : Type}

namespace TempTable

/-- The row has the primary key, the actor id and the repeated values in the columns that the temp
table has for them, and no other columns. -/
structure Built (t : TempTable) (mainKey : Datum) (actor : Int)
    (entries : List (String × Datum)) (row : Row) : Prop where
  key : row.get? t.keyColumn = some mainKey
  actor : row.get? t.actorColumn = some (.int actor)
  copy {column source : String} : t.copies.get? column = some source →
    ∃ value, entries.lookup source = some value ∧ row.get? column = some value
  only {column : String} : column ∈ row.names →
    column = t.keyColumn ∨ column = t.actorColumn ∨ column ∈ t.copies.names

/-- Where columns of the temp table have the same name, they are to hold the same value. -/
structure Agrees (t : TempTable) (mainKey : Datum) (actor : Int)
    (entries : List (String × Datum)) : Prop where
  key_actor : t.keyColumn = t.actorColumn → mainKey = .int actor
  key_copy {source : String} : t.copies.get? t.keyColumn = some source →
    entries.lookup source = some mainKey
  actor_copy {source : String} : t.copies.get? t.actorColumn = some source →
    entries.lookup source = some (.int actor)

/-- No row has all that it is to have, unless the columns agree. -/
theorem Built.agrees {t : TempTable} {mainKey : Datum} {actor : Int}
    {entries : List (String × Datum)} {row : Row} (h : t.Built mainKey actor entries row) :
    t.Agrees mainKey actor entries where
  key_actor hsame := Option.some.inj (h.key.symm.trans (hsame ▸ h.actor))
  key_copy hcopy := by
    obtain ⟨value, hvalue, hget⟩ := h.copy hcopy
    rw [hvalue, ← hget, h.key]
  actor_copy hcopy := by
    obtain ⟨value, hvalue, hget⟩ := h.copy hcopy
    rw [hvalue, ← hget, h.actor]

/-- Columns with different names agree. -/
theorem agrees_of_nodup {t : TempTable} (h : (t.keyColumn :: t.actorColumn :: t.copies.names).Nodup)
    (mainKey : Datum) (actor : Int) (entries : List (String × Datum)) :
    t.Agrees mainKey actor entries := by
  obtain ⟨hkey, hrest⟩ := List.nodup_cons.mp h
  obtain ⟨hactor, -⟩ := List.nodup_cons.mp hrest
  rw [List.mem_cons, not_or] at hkey
  have hfresh {column source : String} (hcopy : t.copies.get? column = some source) :
      column ∈ t.copies.names := by
    rw [OrderedMap.mem_names_iff, hcopy]
    rfl
  exact ⟨fun hsame ↦ absurd hsame hkey.1, fun hcopy ↦ absurd (hfresh hcopy) hkey.2,
    fun hcopy ↦ absurd (hfresh hcopy) hactor⟩

end TempTable

namespace PendingWrite

variable {key : String} {t : TempTable} {actor : Int} {handle : Handle} {mainKey extras : Datum}
  {entries : List (String × Datum)}

theorem lookup_copied (entries : List (String × Datum)) (copies : List (String × String))
    (column : String) : (copied entries copies).lookup column =
      (copies.lookup column).map fun source ↦ (entries.lookup source).getD .null := by
  induction copies with
  | nil => rfl
  | cons copy rest ih =>
    change ((copy.1, (entries.lookup copy.2).getD .null) :: copied entries rest).lookup column = _
    rw [lookup_entry_cons, lookup_entry_cons copy.1 column copy.2, ih]
    split <;> rfl

/-- What the row has in a column: the repeated value, if the column is to repeat one, or else the
actor id or the primary key. -/
theorem get?_finalRow (key : String) (t : TempTable) (actor : Int) (handle : Handle)
    (mainKey : Datum) (entries : List (String × Datum)) (column : String) :
    (finalRow ⟨key, .store t actor handle⟩ t mainKey entries).get? column =
      ((t.copies.get? column).map fun source ↦ (entries.lookup source).getD .null).or
        (if column = t.actorColumn then some (.int actor)
          else if column = t.keyColumn then some mainKey else none) := by
  have hdistinct : ((copied entries t.copies.entries).map Prod.fst).Nodup := by
    have hnames : (copied entries t.copies.entries).map Prod.fst = t.copies.names := by
      simp [copied, OrderedMap.names]
    rw [hnames]
    exact t.copies.distinct
  rw [← storedRow_eq_finalRow key t actor handle, storedRow, OrderedMap.get?_putAll _ hdistinct,
    lookup_copied]
  congr 1
  change ((OrderedMap.empty.put t.keyColumn mainKey).put t.actorColumn (.int actor)).get? column = _
  rw [OrderedMap.get?_put, OrderedMap.get?_put, OrderedMap.get?_empty]

theorem mem_names_finalRow {column : String}
    (h : column ∈ (finalRow ⟨key, .store t actor handle⟩ t mainKey entries).names) :
    column = t.keyColumn ∨ column = t.actorColumn ∨ column ∈ t.copies.names := by
  rw [OrderedMap.mem_names_iff, get?_finalRow] at h
  rw [OrderedMap.mem_names_iff]
  by_contra hnone
  simp only [not_or, Option.not_isSome_iff_eq_none] at hnone
  simp [hnone] at h

theorem exists_of_complete
    (hcomplete : Complete ⟨key, .store t actor handle⟩ (entries.map Prod.fst))
    {column source : String} (hcopy : t.copies.get? column = some source) :
    ∃ value, entries.lookup source = some value := by
  have hsource : source ∈ t.copies.values :=
    List.mem_map_of_mem (f := Prod.snd) ((t.copies.get?_eq_some_iff_mem column source).mp hcopy)
  exact Option.isSome_iff_exists.mp (lookup_isSome_iff_mem.mpr (hcomplete source hsource))

/-- The row that is stored has all that it is to have if the columns agree. -/
theorem built_finalRow (hcomplete : Complete ⟨key, .store t actor handle⟩ (entries.map Prod.fst))
    (hagrees : t.Agrees mainKey actor entries) :
    t.Built mainKey actor entries (finalRow ⟨key, .store t actor handle⟩ t mainKey entries) where
  key := by
    rw [get?_finalRow]
    cases hcopy : t.copies.get? t.keyColumn with
    | some source => simp [hagrees.key_copy hcopy]
    | none =>
      by_cases hsame : t.keyColumn = t.actorColumn
      · simp [hsame, hagrees.key_actor hsame]
      · simp [hsame]
  actor := by
    rw [get?_finalRow]
    cases hcopy : t.copies.get? t.actorColumn with
    | some source => simp [hagrees.actor_copy hcopy]
    | none => simp
  copy hcopy := by
    obtain ⟨value, hvalue⟩ := exists_of_complete hcomplete hcopy
    exact ⟨value, hvalue, by simp [get?_finalRow, hcopy, hvalue]⟩
  only := mem_names_finalRow

/-- With all its columns and a primary key, a write that stores something is the statement for its
final row. -/
theorem finish_store_eq (hgiven : extras.HandsIn entries)
    (hcomplete : Complete ⟨key, .store t actor handle⟩ (entries.map Prod.fst))
    (hkey : mainKey ≠ .null) (storage : Storage ω) :
    finish ⟨key, .store t actor handle⟩ storage mainKey extras = (do
      let row := finalRow ⟨key, .store t actor handle⟩ t mainKey entries
      handle.upsert storage t.name row [t.keyColumn]
      Operation.report "temp_table_upserted" .debug
        [("field", key), ("table", t.name), ("pk", mainKey), ("actor_id", .int actor)]
      return ⟨true, some t.name, row⟩) := by
  simp only [finish, hgiven.eq_record, repeatedColumns_of_complete key hcomplete]
  change (pure _ >>= _ : Operation Signal ω Completion) = _
  simp only [pure_bind, storedRow_eq_finalRow key t actor handle]

/-- Finishing a write that is to store an actor executes one statement, whatever the storage, which
stores one row. The values to be repeated are in that row, and it has no columns beyond those of the
temp table. It has the primary key and the actor id in their columns as well exactly if the columns
that share a name agree on their value, so always if all names are different; and if they do not
agree, there is no row that has all it is to have. -/
theorem stored_row_as_built_iff (key : String) (t : TempTable) (actor : Int) (handle : Handle)
    {mainKey extras : Datum} {entries : List (String × Datum)} (hkey : mainKey ≠ .null)
    (hgiven : extras.HandsIn entries)
    (hcomplete : ∀ source ∈ t.copies.values, source ∈ entries.map Prod.fst) :
    ∃ row : Row,
      (∀ {ω : Type} (storage : Storage ω) (now : ω),
        let outcome := finish ⟨key, .store t actor handle⟩ storage mainKey extras now
        callsIn outcome.trace = [storeCall handle t row] ∧
          ((∃ cursor later, storage.execute handle.connection handle.dialect
            (.upsert t.name row.names [t.keyColumn]) row.values now = (.ok cursor, later)) →
          outcome.result = .ok ⟨true, some t.name, row⟩)) ∧
      (∀ column source, t.copies.get? column = some source →
        row.get? column = entries.lookup source) ∧
      (∀ column ∈ row.names, column = t.keyColumn ∨ column = t.actorColumn ∨
        column ∈ t.copies.names) ∧
      (t.Built mainKey actor entries row ↔ t.Agrees mainKey actor entries) ∧
      (∀ other, t.Built mainKey actor entries other → t.Built mainKey actor entries row) ∧
      ((t.keyColumn :: t.actorColumn :: t.copies.names).Nodup →
        t.Built mainKey actor entries row) := by
  have hcomplete : Complete ⟨key, .store t actor handle⟩ (entries.map Prod.fst) := hcomplete
  refine ⟨finalRow ⟨key, .store t actor handle⟩ t mainKey entries, fun storage now ↦ ⟨?_, ?_⟩,
    fun column source hcopy ↦ ?_, fun column ↦ mem_names_finalRow,
    ⟨(·.agrees), built_finalRow hcomplete⟩,
    fun other hother ↦ built_finalRow hcomplete hother.agrees,
    fun hnodup ↦ built_finalRow hcomplete (t.agrees_of_nodup hnodup ..)⟩
  · have hfinished := finished_store storage mainKey now hcomplete hgiven
    rw [hfinished.calls_eq hcomplete fun h ↦ hkey h.2]
    rfl
  · rintro ⟨cursor, later, hanswer⟩
    rw [finish_store_eq hgiven hcomplete hkey, Operation.bind_of_ok (Handle.upsert_of_ok hanswer)]
    rfl
  · obtain ⟨value, hvalue⟩ := exists_of_complete hcomplete hcopy
    simp [get?_finalRow, hcopy, hvalue]

/-- The temp table of an archive, which repeats the timestamp in a column of its own. -/
def archiveTable : TempTable :=
  ⟨"archive_actor", "aa_archive", "aa_actor", "ar_id",
    OrderedMap.ofList [("aa_timestamp", "ar_timestamp")]⟩

/-- In the archive every name is different. -/
theorem archive_row_as_built :
    ∃ row : Row,
      (∀ now, callsIn (finish ⟨"ar_user", .store archiveTable 1 ⟨"main", .sqlite, "local"⟩⟩
        Storage.rehearsal (.int 5) (.record [("ar_timestamp", .text "2021")]) now).trace =
          [storeCall ⟨"main", .sqlite, "local"⟩ archiveTable row]) ∧
      archiveTable.Built (.int 5) 1 [("ar_timestamp", .text "2021")] row := by
  have hkey : Datum.int 5 ≠ .null := nofun
  obtain ⟨row, hstored, -, -, -, -, hbuilt⟩ := stored_row_as_built_iff "ar_user" archiveTable 1
    ⟨"main", .sqlite, "local"⟩ hkey (.record [("ar_timestamp", .text "2021")]) (by decide)
  exact ⟨row, fun now ↦ (hstored Storage.rehearsal now).1, hbuilt (by decide)⟩

/-- A configuration of the archive that repeats the timestamp in the column of the actor. -/
def clashingConfiguration : RawRecord :=
  [("tempTable", .record [("table", "archive_actor"), ("pk", "aa_archive"),
    ("actorField", "aa_actor"), ("joinPk", "ar_id"),
    ("extra", .record [("aa_actor", "ar_timestamp")])])]

/-- It is accepted, and then the timestamp stands where the actor should. -/
theorem timestamp_stored_as_actor :
    ∃ (t : TempTable) (w : PendingWrite) (now later : Rehearsal) (row : Row),
      UserField.ofDatum "ar_user" (.record clashingConfiguration) =
        .ok { UserField.plain with tempTable := some t } ∧
      make "ar_user" .store (some t) (some 1) (some ⟨"main", .sqlite, "local"⟩) = .ok w ∧
      (w.finish Storage.rehearsal (.int 5) (.record [("ar_timestamp", .text "2021")])).Gives now
        ⟨true, some t.name, row⟩ later ∧
      row.get? t.actorColumn = some (.text "2021") ∧
      ¬t.Built (.int 5) 1 [("ar_timestamp", .text "2021")] row := by
  refine ⟨⟨"archive_actor", "aa_archive", "aa_actor", "ar_id",
      OrderedMap.ofList [("aa_actor", "ar_timestamp")]⟩, _, ⟨.empty, [], .empty⟩, _,
    OrderedMap.ofList [("aa_archive", .int 5), ("aa_actor", .text "2021")], rfl, rfl, ⟨_, rfl⟩,
    rfl, fun hbuilt ↦ ?_⟩
  exact nomatch hbuilt.actor

end PendingWrite

end StagedColumns
