import StagedColumns.Planner.Read
import StagedColumns.Proofs.PendingWrite
import StagedColumns.Proofs.Planner.Write

/-!
# Stored rows

A caller stores a row in three steps: it asks for the values of the row's columns, inserts the row,
and finishes what is pending (`storeRow`). If the new representation is written, the actor id ends
up in the row itself or in the one row of the temp table that belongs to it, whatever was in the
temp table before (`exists_storeRow`).
-/

set_option autoImplicit false

namespace StagedColumns

variable {ω : Type}

/-- The values handed in for the row that is finished: those of the columns that the temp table
repeats are there. -/
structure TempTable.SuppliedBy (t : TempTable) (extras : Datum) : Prop where
  given : ∃ entries, (extras = .record entries ∨ extras = .null ∧ entries = []) ∧
    ∀ source ∈ t.copies.values, (entries.lookup source).isSome = true

theorem TempTable.SuppliedBy.exists_repeated {t : TempTable} {extras : Datum}
    (h : t.SuppliedBy extras) (key : String) :
    ∃ repeated, PendingWrite.repeatedColumns key
        (if extras.truthy then extras else .record []) t.copies.entries = .ok repeated ∧
      repeated.map Prod.fst = t.copies.names := by
  obtain ⟨entries, hextras, hgiven⟩ := h.given
  have hhandsIn : extras.HandsIn entries := by
    rcases hextras with rfl | ⟨rfl, rfl⟩
    · exact .record entries
    · exact .nothing
  rw [hhandsIn.eq_record]
  refine ⟨_, PendingWrite.repeatedColumns_of_complete key fun source hsource ↦
    lookup_isSome_iff_mem.mp (hgiven source hsource), ?_⟩
  simp [PendingWrite.copied, OrderedMap.names]

theorem entries_storedRow {t : TempTable} {repeated : List (String × Datum)}
    (hdistinct : (t.keyColumn :: t.actorColumn :: repeated.map Prod.fst).Nodup) (mainKey : Datum)
    (actor : Int) :
    (PendingWrite.storedRow t mainKey actor repeated).entries =
      (t.keyColumn, mainKey) :: (t.actorColumn, .int actor) :: repeated := by
  have hfirst : ([(t.keyColumn, mainKey), (t.actorColumn, .int actor)].map Prod.fst).Nodup :=
    hdistinct.sublist (by simp)
  have hnames : (OrderedMap.ofList
      [(t.keyColumn, mainKey), (t.actorColumn, Datum.int actor)]).entries =
      [(t.keyColumn, mainKey), (t.actorColumn, .int actor)] := OrderedMap.entries_ofList hfirst
  unfold PendingWrite.storedRow
  rw [OrderedMap.entries_putAll_of_fresh, hnames]
  · rfl
  · rw [OrderedMap.names, hnames]
    exact hdistinct

/-- The temp table links a key of the main table to the actor: exactly one of its rows has the key,
and it holds the actor id. -/
def Database.Links (db : Database) (t : TempTable) (mainKey : Datum) (actor : Int) : Prop :=
  ∃ row, (db.rows t.name).filter (hasIn t.keyColumn mainKey) = [row] ∧
    cell row t.actorColumn = .int actor

theorem Database.links_upsert {db : Database} {t : TempTable} {mainKey : Datum} {actor : Int}
    {repeated : List (String × Datum)}
    (hdistinct : (t.keyColumn :: t.actorColumn :: repeated.map Prod.fst).Nodup)
    (hkey : Sql.equality mainKey mainKey = some true)
    (hunique : UniqueIn t.keyColumn (db.rows t.name)) (d : Dialect) :
    (db.upsert d t.name (PendingWrite.storedRow t mainKey actor repeated) [t.keyColumn]).Links t
      mainKey actor := by
  have hentries := entries_storedRow hdistinct mainKey actor
  generalize PendingWrite.storedRow t mainKey actor repeated = row at hentries ⊢
  have hne : t.actorColumn ≠ t.keyColumn := by
    simp only [List.nodup_cons, List.mem_cons, not_or] at hdistinct
    exact Ne.symm hdistinct.1.1
  have hkeyColumn : t.keyColumn ∈ row.names := by simp [OrderedMap.names, hentries]
  have hactorColumn : t.actorColumn ∈ row.names := by simp [OrderedMap.names, hentries]
  have hkeyCell : cell row t.keyColumn = mainKey := by
    simp [cell, OrderedMap.get?, hentries]
  have hactorCell : cell row t.actorColumn = .int actor := by
    simp [cell, OrderedMap.get?, hentries, lookup_entry_cons, hne]
  have hoff : t.actorColumn ∉ [t.keyColumn] := by simpa using hne
  have hreplaced := mem_replacedColumns d hactorColumn hoff
  have hself : hasIn t.keyColumn (cell row t.keyColumn) row = true := by
    simpa [hasIn, hkeyCell] using hkey
  obtain ⟨stored, hstored, hcells⟩ := exists_filter_upsertRow hunique hkeyColumn hself
    (by simp [hreplaced] : t.keyColumn ∉ d.replacedColumns row.names [t.keyColumn])
  refine ⟨stored, ?_, ?_⟩
  · rw [upsert, rows_change_self, ← hkeyCell]
    exact hstored
  · rw [hcells t.actorColumn ((hreplaced _).mpr ⟨hactorColumn, hoff⟩) hactorColumn,
      hactorCell]

/-- The tables that a caller works with are different, and the temp table has its key. -/
structure UserField.LivesIn (field : UserField) (main : String) (primary : String → List String) :
    Prop where
  main_ne : main ≠ Planner.actorTable
  temp_ne {t : TempTable} : field.tempTable = some t →
    t.name ≠ main ∧ t.name ≠ Planner.actorTable
  temp_key {t : TempTable} : field.tempTable = some t → primary t.name = [t.keyColumn]

/-- What a caller sees to who stores a row: its key is fresh in the main table, and where the field
has a temp table, the row has that key in the right column, the repeated values are handed in, and
the temp table does not have a key twice. -/
structure UserField.Storable (field : UserField) (db : Database) (main : String)
    (primary : String → List String) (row full : Row) (mainKey extras : Datum) : Prop where
  fresh : ∀ other ∈ db.rows main, agreeOn (primary main) other full = false
  equal_self : Sql.equality mainKey mainKey = some true
  held {t : TempTable} : field.tempTable = some t → cell row t.mainKey = mainKey
  supplied {t : TempTable} : field.tempTable = some t → t.SuppliedBy extras
  unique {t : TempTable} : field.tempTable = some t → UniqueIn t.keyColumn (db.rows t.name)

/-- The row is in the main table, and if its actor is kept in a temp table, that links the row's key
to the actor. The other tables are as before. -/
structure Database.Stores (db before : Database) (stage : Stage) (field : UserField)
    (main : String) (full : Row) (mainKey : Datum) (actor : Int) : Prop where
  mem_main : full ∈ db.rows main
  linked {t : TempTable} : field.tempTable = some t → stage.writesNew = true →
    db.Links t mainKey actor
  kept {table : String} : table ≠ main →
    (∀ t, field.tempTable = some t → table ≠ t.name) → db.rows table = before.rows table

namespace Planner

/-- Stores a row for a user: its values are asked for, it is inserted into the main table, and what
is pending is finished with its primary key. -/
def storeRow (p : Planner) (storage : Storage ω) (handle : Handle) (key : String) (linked : Bool)
    (user : User) (main : String) (row : Row) (mainKey extras : Datum) :
    Operation Signal ω Row := do
  let (values, pending) ← p.writeBy storage handle key user linked
  let full := row.merge values
  let _ ← handle.insert storage main full
  let _ ← pending.finish storage mainKey extras
  return full

section Storing

variable {storage : Storage ω} {content : ω → Database} {primary : String → List String}
variable {handle : Handle} {state later : ω}

theorem gives_execute {statement : Statement} {parameters : List Datum} {cursor : Cursor}
    (h : storage.execute handle.connection handle.dialect statement parameters state =
      (.ok cursor, later)) :
    (handle.execute storage statement parameters).Gives state cursor later :=
  ⟨_, by rw [Handle.execute, h]; rfl⟩

theorem exists_insert (hreaches : handle.Reaches storage content primary) {table : String}
    {row : Row}
    (hfresh : ∀ other ∈ (content state).rows table, agreeOn (primary table) other row = false) :
    ∃ last next, (handle.insert storage table row).Gives state last next ∧
      content next = (content state).insert table row := by
  obtain ⟨cursor, next, hexecute, hcontent⟩ := hreaches.insert hfresh
  exact ⟨cursor.lastRow, next, .bind (gives_execute hexecute) (.pure _ _), hcontent⟩

theorem exists_upsert (hreaches : handle.Reaches storage content primary) (state : ω)
    {table : String} {keys : List String} (hkeys : primary table = keys) (row : Row) :
    ∃ next, (handle.upsert storage table row keys).Gives state () next ∧
      content next = (content state).upsert handle.dialect table row keys := by
  subst hkeys
  obtain ⟨cursor, next, hexecute, hcontent⟩ := hreaches.upsert
  exact ⟨next, .orElseWith (.bind (gives_execute hexecute) (.pure () _)) _, hcontent⟩

theorem exists_finish_store (hreaches : handle.Reaches storage content primary) {key : String}
    {t : TempTable} {actor : Int} {mainKey extras : Datum}
    (hdistinct : (t.keyColumn :: t.actorColumn :: t.copies.names).Nodup)
    (hprimary : primary t.name = [t.keyColumn]) (hkey : Sql.equality mainKey mainKey = some true)
    (hsupplied : t.SuppliedBy extras)
    (hunique : UniqueIn t.keyColumn ((content state).rows t.name)) :
    ∃ completion next, (PendingWrite.finish ⟨key, .store t actor handle⟩ storage mainKey
        extras).Gives state completion next ∧ (content next).Links t mainKey actor ∧
      ∀ table, table ≠ t.name → (content next).rows table = (content state).rows table := by
  obtain ⟨repeated, hrepeated, hnames⟩ := hsupplied.exists_repeated key
  obtain ⟨next, hupsert, hcontent⟩ := exists_upsert hreaches state hprimary
    (PendingWrite.storedRow t mainKey actor repeated)
  refine ⟨⟨true, some t.name, PendingWrite.storedRow t mainKey actor repeated⟩, next, ?_, ?_, ?_⟩
  · refine .bind (.ofExcept hrepeated state) ?_
    cases mainKey with
    | null => cases hkey
    | _ => exact .bind hupsert (.bind (.sign _ _) (.pure _ _))
  · rw [hcontent]
    exact Database.links_upsert (hnames ▸ hdistinct) hkey hunique handle.dialect
  · intro table htable
    rw [hcontent, Database.upsert, Database.rows_change_of_ne _ _ htable]

/-- Finishing what a write left pending links the row to the actor where there is a temp table, and
changes nothing else. -/
theorem exists_finish (stage : Stage) (actor : Int) {key : String} {field : UserField}
    {mainKey extras : Datum} (hreaches : handle.Reaches storage content primary)
    (hdistinct : field.HasDistinctNames key)
    (hprimary : ∀ t, field.tempTable = some t → primary t.name = [t.keyColumn])
    (hkey : Sql.equality mainKey mainKey = some true)
    (hsupplied : ∀ t, field.tempTable = some t → t.SuppliedBy extras)
    (hunique : ∀ t, field.tempTable = some t →
      UniqueIn t.keyColumn ((content state).rows t.name)) :
    ∃ completion next, ((pendingWrite stage handle key field actor).finish storage mainKey
        extras).Gives state completion next ∧
      (∀ t, field.tempTable = some t → stage.writesNew = true →
        (content next).Links t mainKey actor) ∧
      ∀ table, (∀ t, field.tempTable = some t → table ≠ t.name) →
        (content next).rows table = (content state).rows table := by
  unfold pendingWrite
  cases htable : field.tempTable with
  | none => exact ⟨_, state, .pure _ _, nofun, fun _ _ ↦ rfl⟩
  | some t =>
    by_cases hnew : stage.writesNew = true
    · obtain ⟨completion, next, hfinish, hlinks, hkept⟩ := exists_finish_store hreaches
        (hdistinct.table htable) (hprimary t htable) hkey (hsupplied t htable) (hunique t htable)
      simp only [hnew, if_true]
      exact ⟨completion, next, hfinish, fun _ h _ ↦ Option.some.inj h ▸ hlinks,
        fun table h ↦ hkept table (h t rfl)⟩
    · obtain ⟨repeated, hrepeated, -⟩ := (hsupplied t htable).exists_repeated key
      simp only [hnew]
      exact ⟨⟨false, some t.name, .empty⟩, state, .bind (.ofExcept hrepeated state) (.pure _ _),
        fun _ _ h ↦ (by cases h), fun _ _ ↦ rfl⟩

/-- Storing a row succeeds, and the row is stored. -/
theorem exists_storeRow {p : Planner} {key : String} {field : UserField} {user : User}
    {linked : Bool} {actor : Int} {main : String} {row : Row} {mainKey extras : Datum}
    (hadmits : p.table.Admits key field) (hdistinct : field.HasDistinctNames key)
    (haccepts : field.accepts linked = true) (hlives : field.LivesIn main primary)
    (hreaches : handle.Reaches storage content primary)
    (hacquires : p.Acquires storage handle user state actor later)
    (hkept : ∀ table, table ≠ actorTable →
      (content later).rows table = (content state).rows table)
    (hstorable : field.Storable (content state) main primary row
      (row.merge (mainValues p.stage key field user actor)) mainKey extras) :
    ∃ final, (p.storeRow storage handle key linked user main row mainKey extras).Gives state
        (row.merge (mainValues p.stage key field user actor)) final ∧
      (content final).Stores (content later) p.stage field main
        (row.merge (mainValues p.stage key field user actor)) mainKey actor := by
  generalize hfull : row.merge (mainValues p.stage key field user actor) = full at hstorable ⊢
  have hfresh : ∀ other ∈ (content later).rows main, agreeOn (primary main) other full = false :=
    hkept main hlives.main_ne ▸ hstorable.fresh
  obtain ⟨last, inserted, hinsert, hcontent⟩ := exists_insert hreaches hfresh
  have hunique : ∀ t, field.tempTable = some t →
      UniqueIn t.keyColumn ((content inserted).rows t.name) := by
    intro t ht
    rw [hcontent, Database.insert, Database.rows_change_of_ne _ _ (hlives.temp_ne ht).1,
      hkept t.name (hlives.temp_ne ht).2]
    exact hstorable.unique ht
  obtain ⟨completion, final, hfinish, hlinks, hothers⟩ := exists_finish p.stage actor
    hreaches hdistinct (fun t ht ↦ hlives.temp_key ht) hstorable.equal_self
    (fun t ht ↦ hstorable.supplied ht) hunique
  refine ⟨final, .bind (gives_writeBy hadmits haccepts hacquires) ?_, ⟨?_, ?_, ?_⟩⟩
  · simp only [hfull]
    exact .bind hinsert (.bind hfinish (.pure _ _))
  · rw [hothers main fun t ht ↦ (hlives.temp_ne ht).1.symm, hcontent, Database.insert,
      Database.rows_change_self]
    exact List.mem_append_right _ List.mem_cons_self
  · intro t ht hnew
    exact hlinks t ht hnew
  · intro table hmain htemp
    rw [hothers table htemp, hcontent, Database.insert, Database.rows_change_of_ne _ _ hmain]

end Storing

end Planner

end StagedColumns
