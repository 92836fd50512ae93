import StagedColumns.Proofs.Field.DefaultNames
import StagedColumns.Proofs.Planner.KeptReadings
import StagedColumns.Proofs.Planner.Read
import StagedColumns.Proofs.Query.DatabaseStorage

/-!
# Reading what was written

A row that was stored for a user is read back as that user's, at every stage that reads what the
writing stage fills: from the old representation, or through the actor table, and with the actor id
in the row itself or in a temp table. What was in the tables before does not matter.
-/

set_option autoImplicit false

namespace StagedColumns

open Sql

variable {ω : Type}

/-- The id of a user as the actor table has it, where users who are not registered have none. -/
def User.registeredId (u : User) : Datum :=
  if u.id = 0 then .null else .int u.id

/-- The actor table has exactly one row of the actor id, and it names the user. -/
def Database.Enters (db : Database) (user : User) (actor : Int) : Prop :=
  ∃ row, (db.rows Planner.actorTable).filter (hasIn "actor_id" (.int actor)) = [row] ∧
    cell row "actor_user" = user.registeredId ∧ cell row "actor_name" = .text user.name

namespace Planner

/-- What a row that was stored for a user is read as. -/
def readBack (reading : Schema) (key : String) (names : ColumnNames) (user : User) (actor : Int) :
    List (String × Datum) :=
  match reading with
  | .old => [(key, .int user.id), (names.text, .text user.name), (names.actor, .null)]
  | .new =>
    [(key, user.registeredId), (names.text, .text user.name), (names.actor, .int actor)]

section

variable {key : String} {field : UserField} {user : User} {actor : Int} {full : Row}
variable {d : Dialect} {db : Database}

theorem rows_oldReading (hplain : field.HasPlainNames key) (hdistinct : field.HasDistinctNames key)
    (hkey : cell full key = .int user.id)
    (htext : cell full (field.columnNames key).text = .text user.name) :
    (oldReading key (field.columnNames key)).rows? d db full =
      some [readBack .old key (field.columnNames key) user actor] := by
  have hentries : (oldReading key (field.columnNames key)).outputs.entries =
      [(key, .column key), ((field.columnNames key).text, .column (field.columnNames key).text),
        ((field.columnNames key).actor, .null)] := OrderedMap.entries_ofList hdistinct.columns
  have hscopes : (oldReading key (field.columnNames key)).source.scopes? d db full =
      some [⟨full, []⟩] := Tables.scopes?_empty d db full
  rw [Reading.rows?_eq hscopes, hentries]
  · simp only [List.map_cons, List.map_nil, Scope.value, hkey, htext, readBack]
  · rw [hentries]
    simp only [List.forall_mem_cons]
    exact ⟨Expression.readAs_of_lex (lex_name d hplain.plain_key),
      Expression.readAs_of_lex (lex_name d hplain.plain_text), Expression.readAs_null d,
      fun _ h ↦ by cases h⟩

/-- The actor table comes after what the actor id is found in. -/
theorem value_actorExpression_join (s : Scope) (row : Row) :
    (s.join (actorAlias key) row).value (actorExpression key field) =
      s.value (actorExpression key field) := by
  unfold actorExpression actorSource
  cases field.tempTable with
  | none => rfl
  | some t => exact Scope.value_join_of_ne (tempAlias_ne_actorAlias key key) row t.actorColumn

theorem rows_newReading (hplain : field.HasPlainNames key) (hdistinct : field.HasDistinctNames key)
    {s : Scope} (hscopes : (actorTables key field).scopes? d db full = some [s])
    (hactor : s.value (actorExpression key field) = .int actor)
    (hjoined : s.joined.map Prod.fst = (actorTables key field).tables.names)
    (hfresh : actorAlias key ∉ (actorTables key field).tables.names)
    (henters : db.Enters user actor) :
    (newReading key (field.columnNames key) field.tempTable).rows? d db full =
      some [readBack .new key (field.columnNames key) user actor] := by
  obtain ⟨row, hrow, huser, hname⟩ := henters
  have hself (row : Row) (name : String) :
      (s.join (actorAlias key) row).value (.qualified (actorAlias key) name) = cell row name :=
    Scope.value_join_self (hjoined ▸ hfresh) row name
  have hsource : ((actorTables key field).add (actorAlias key) actorTable
      (.inner (.qualified (actorAlias key) "actor_id") (actorExpression key field))).scopes? d db
        full = some [s.join (actorAlias key) row] := by
    refine Tables.scopes?_add_equal hfresh hscopes (parse_actorTie d hplain) ?_
    simp only [hself, value_actorExpression_join, hactor]
    exact hrow
  have hentries : (OrderedMap.ofList [(key, .qualified (actorAlias key) "actor_user"),
      ((field.columnNames key).text, .qualified (actorAlias key) "actor_name"),
      ((field.columnNames key).actor, actorExpression key field)]).entries =
      [(key, .qualified (actorAlias key) "actor_user"),
        ((field.columnNames key).text, .qualified (actorAlias key) "actor_name"),
        ((field.columnNames key).actor, actorExpression key field)] :=
    OrderedMap.entries_ofList hdistinct.columns
  have hword := isWord_actorAlias hplain.plain_key
  rw [newReading_eq, Reading.rows?_eq hsource, hentries]
  · simp only [List.map_cons, List.map_nil, hself, value_actorExpression_join, hactor, huser, hname,
      readBack]
  · rw [hentries]
    simp only [List.forall_mem_cons]
    exact ⟨Expression.readAs_of_lex (lex_qualified d hword (by decide)),
      Expression.readAs_of_lex (lex_qualified d hword (by decide)),
      Expression.readAs_of_lex (lex_actorExpression d hplain), fun _ h ↦ by cases h⟩

end

/-- A row that is stored for a user at one stage is read as that user's at every stage that reads
what the first one writes, whatever the tables held before. -/
theorem stored_row_reads_back {writer reader : Planner} {storage : Storage ω}
    {content : ω → Database} {primary : String → List String} {handle : Handle} {key : String}
    {field : UserField} {linked : Bool} {main : String} {user : User} {state later : ω}
    {actor : Int} {row : Row} {mainKey extras : Datum} {m : Memo Reading}
    (hwriter : writer.table.Admits key field) (hreader : reader.table.Admits key field)
    (hplain : field.HasPlainNames key) (hdistinct : field.HasDistinctNames key)
    (hstages : writer.stage.writing.fills reader.stage.reading = true)
    (haccepts : field.accepts linked = true) (hlives : field.LivesIn main primary)
    (hreaches : handle.Reaches storage content primary)
    (hacquires : writer.Acquires storage handle user state actor later)
    (hkept : ∀ table, table ≠ actorTable →
      (content later).rows table = (content state).rows table)
    (henters : writer.stage.writesNew = true → (content later).Enters user actor)
    (hstorable : field.Storable (content state) main primary row
      (row.merge (mainValues writer.stage key field user actor)) mainKey extras)
    (hreadings : reader.KeepsReadings m) (d : Dialect) :
    ∃ full final, (writer.storeRow storage handle key linked user main row mainKey extras).Gives
        state full final ∧ full ∈ (content final).rows main ∧
      ∃ reading next, (reader.read key).Gives m reading next ∧
        reading.rows? d (content final) full =
          some [readBack reader.stage.reading key (field.columnNames key) user actor] := by
  obtain ⟨final, hstore, hstores⟩ := exists_storeRow hwriter hdistinct haccepts hlives hreaches
    hacquires hkept hstorable
  obtain ⟨next, hread, -⟩ := gives_read hreader hreadings
  refine ⟨_, final, hstore, hstores.mem_main, _, next, hread, ?_⟩
  unfold readingAt
  cases hreading : reader.stage.reading with
  | old =>
    rw [hreading] at hstages
    have hold : writer.stage.writesOld = true := hstages
    have hkey : cell (row.merge (mainValues writer.stage key field user actor)) key =
        .int user.id := by
      rw [cell_merge, get?_mainValues_key user actor hdistinct hold, Option.getD_some]
    have htext : cell (row.merge (mainValues writer.stage key field user actor))
        (field.columnNames key).text = .text user.name := by
      rw [cell_merge, get?_mainValues_text user actor hdistinct hold, Option.getD_some]
    exact rows_oldReading hplain hdistinct hkey htext
  | new =>
    rw [hreading] at hstages
    have hnew : writer.stage.writesNew = true := hstages
    obtain ⟨s, hscopes, hactor, hjoined, hfresh⟩ := exists_actorScope hplain hnew hstores
      (fun htable ↦ cell_actorColumn user actor hdistinct hnew htable row)
      (fun t htable ↦ (cell_mainKey user actor hdistinct htable row).trans (hstorable.held htable))
      d
    have hactors : (content final).Enters user actor := by
      have hrows := hstores.kept (Ne.symm hlives.main_ne)
        fun t htable ↦ (hlives.temp_ne htable).2.symm
      unfold Database.Enters
      rw [hrows]
      exact henters hnew
    exact rows_newReading hplain hdistinct hscopes hactor hjoined hfresh hactors

/-- A field of an archive, whose actors are kept in a temp table. -/
def archiveField : UserField :=
  { UserField.plain with
    tempTable := some ⟨"archive_actor", "aa_archive", "aa_actor", "ar_id",
      OrderedMap.ofList [("aa_timestamp", "ar_timestamp")]⟩ }

/-- A planner for the archive at a stage. -/
def archivePlanner (stage : Stage) : Planner :=
  ⟨stage, ⟨OrderedMap.ofList [("ar_user", archiveField)], false, "core", "planner"⟩⟩

/-- A database with an old entry for a key in the temp table of the archive. -/
def staleArchive : Database :=
  ⟨fun table ↦
    if table = "archive_actor" then
      [OrderedMap.ofList [("aa_archive", .int 5), ("aa_actor", .int 99)]]
    else []⟩

/-- A user who is not registered, and an old entry in the temp table. -/
theorem archived_row_reads_back :
    ∃ full final, (storeRow (archivePlanner ⟨.both, .old, rfl⟩) Storage.ofDatabase
          ⟨"main", .sqlite, "local"⟩ "ar_user" true ⟨0, "10.0.0.1", .null⟩ "archive"
          (OrderedMap.ofList [("ar_id", .int 5), ("ar_timestamp", .text "20210101000000")])
          (.int 5) (.record [("ar_timestamp", .text "20210101000000")])).Gives
        staleArchive full final ∧ full ∈ final.rows "archive" ∧
      ∃ reading next, (read (archivePlanner ⟨.new, .new, rfl⟩) "ar_user").Gives .empty reading
          next ∧
        reading.rows? .sqlite final full = some
          [[("ar_user", .null), ("ar_user_text", .text "10.0.0.1"), ("ar_actor", .int 1)]] := by
  have hadmits (stage : Stage) : (archivePlanner stage).table.Admits "ar_user" archiveField :=
    ⟨rfl, rfl⟩
  have htable {t : TempTable} (h : archiveField.tempTable = some t) :
      t = ⟨"archive_actor", "aa_archive", "aa_actor", "ar_id",
        OrderedMap.ofList [("aa_timestamp", "ar_timestamp")]⟩ := (Option.some.inj h).symm
  have hplain : archiveField.HasPlainNames "ar_user" :=
    ⟨by decide, UserField.isPlainName_defaultTextColumn (by decide),
      UserField.isPlainName_defaultActorColumn (by decide), fun h ↦ by rw [htable h]; decide⟩
  have hdistinct : archiveField.HasDistinctNames "ar_user" :=
    ⟨UserField.nodup_defaultColumns "ar_user", fun h ↦ by rw [htable h]; decide,
      fun h ↦ by rw [htable h]; decide⟩
  have hlives : archiveField.LivesIn "archive" fun table ↦
      if table = "archive" then ["ar_id"] else ["aa_archive"] :=
    ⟨by decide, fun h ↦ by rw [htable h]; decide, fun h ↦ by rw [htable h]; rfl⟩
  have hacquires : (archivePlanner ⟨.both, .old, rfl⟩).Acquires Storage.ofDatabase
      ⟨"main", .sqlite, "local"⟩ ⟨0, "10.0.0.1", .null⟩ staleArchive 1
      (staleArchive.insert actorTable (Database.actorRow ⟨0, "10.0.0.1", .null⟩ 1)) := rfl
  have hsupplied {t : TempTable} (h : archiveField.tempTable = some t) :
      t.SuppliedBy (.record [("ar_timestamp", .text "20210101000000")]) := by
    rw [htable h]
    exact ⟨_, .inl rfl, by decide⟩
  have hunique {t : TempTable} (h : archiveField.tempTable = some t) :
      UniqueIn t.keyColumn (staleArchive.rows t.name) := by
    rw [htable h]
    intro value
    exact List.length_filter_le _ _
  exact stored_row_reads_back (hadmits _) (hadmits _) hplain hdistinct rfl rfl hlives
    (Handle.reaches_ofDatabase _ _) hacquires
    (fun table h ↦ Database.rows_change_of_ne _ _ h) (fun _ ↦ ⟨_, rfl, rfl, rfl⟩)
    ⟨nofun, rfl, fun h ↦ (by rw [htable h]; rfl), hsupplied, hunique⟩
    (keepsReadings_empty _) .sqlite

end Planner

end StagedColumns
