import StagedColumns.Proofs.Planner.Calls
import StagedColumns.Proofs.Sql.Insertion

/-!
# What upserts do to a table

A table with one unique key, and what a database does with an insertion that it has read: the new
row goes to the end, unless there is a row with the same key, which is then kept or overwritten as
the insertion says. An insertion is refused if its marks and parameters do not match its columns, if
it names another key than that of the table, if it assigns a column twice, if the new row has no
value in a column that requires one, or if the table would end up with a key twice. In a key, absent
values count as equal; where the columns of the key are required, as those of a primary key are,
there are none.

The texts of the three dialects differ, and so do the insertions that they say. What they do is the
same (`upserts_are_one_operation`): MySQL assigns its own value to a key column where the others
assign nothing, and that changes nothing, since only a row with the same key is assigned to.
-/

set_option autoImplicit false

namespace StagedColumns

variable {β : Type}

/-- A row of a table: the value that it has in each column, if any. -/
abbrev StoredRow (β : Type) : Type :=
  String → Option β

/-- The rows have the same values in the columns of a key. -/
def SameKey (keys : List String) (row other : StoredRow β) : Prop :=
  ∀ column ∈ keys, row column = other column

/-- The row has a value in each of the columns. -/
def CompleteOn (required : List String) (row : StoredRow β) : Prop :=
  ∀ column ∈ required, row column ≠ none

instance [DecidableEq β] (keys : List String) (row other : StoredRow β) :
    Decidable (SameKey keys row other) :=
  inferInstanceAs (Decidable (∀ column ∈ keys, _))

instance [DecidableEq β] (required : List String) (row : StoredRow β) :
    Decidable (CompleteOn required row) :=
  inferInstanceAs (Decidable (∀ column ∈ required, _))

/-- A table with one unique key. Some of its columns require values. -/
structure KeyedTable (β : Type) (keys required : List String) where
  rows : List (StoredRow β)
  complete : ∀ row ∈ rows, CompleteOn required row
  distinct : rows.Pairwise fun row other ↦ ¬SameKey keys row other

/-- The change leaves the key alone. -/
def KeepsKey (keys : List String) (change : StoredRow β → StoredRow β) : Prop :=
  ∀ row, SameKey keys (change row) row

/-- Either no row has the key of the new one, or one does that stands somewhere. -/
theorem absent_or_present (keys : List String) (new : StoredRow β) (rows : List (StoredRow β)) :
    (∀ row ∈ rows, ¬SameKey keys row new) ∨
      ∃ front old back, rows = front ++ old :: back ∧ SameKey keys old new := by
  by_cases h : ∃ old ∈ rows, SameKey keys old new
  · obtain ⟨old, hmem, hold⟩ := h
    obtain ⟨front, back, hrows⟩ := List.append_of_mem hmem
    exact .inr ⟨front, old, back, hrows, hold⟩
  · exact .inl fun row hrow hsame ↦ h ⟨row, hrow, hsame⟩

/-! ### What upserts are to do -/

/-- How a database stores rows: the values of parameters, and those of columns that are not listed
in an insertion. -/
structure Storing (β : Type) where
  bound : Datum → Option β
  unlisted : String → Option β

namespace Storing

/-- A row as it is stored where it is new. -/
def newRow (s : Storing β) (row : Row) : StoredRow β := fun column ↦
  match row.get? column with
  | some value => s.bound value
  | none => s.unlisted column

/-- A stored row over whose columns outside the key another row is written. -/
def overwritten (s : Storing β) (row : Row) (keys : List String) (old : StoredRow β) :
    StoredRow β := fun column ↦
  if column ∈ row.names ∧ column ∉ keys then s.newRow row column else old column

end Storing

/-- What an upsert of a row is to do to the rows of a table: the row is inserted if its key is
absent, its columns outside the key are overwritten if it is present, and all else stays. -/
structure Upserted (s : Storing β) (row : Row) (keys : List String)
    (before after : List (StoredRow β)) : Prop where
  inserted : (∀ old ∈ before, ¬SameKey keys old (s.newRow row)) → after = before ++ [s.newRow row]
  overwritten {front back : List (StoredRow β)} {old : StoredRow β} :
    before = front ++ old :: back → SameKey keys old (s.newRow row) →
      after = front ++ s.overwritten row keys old :: back

/-! ### Executing insertions -/

namespace Sql

/-- What the rule makes of a row that has the key of the new one. -/
def ConflictRule.change (new old : StoredRow β) : ConflictRule → StoredRow β
  | keep => old
  | overwrite assignments =>
    assignments.foldl (fun row assignment ↦
      Function.update row assignment.1 (new assignment.2)) old

namespace Insertion

/-- The row that is to be inserted. -/
def newRow (i : Insertion) (s : Storing β) (parameters : List Datum) : StoredRow β := fun column ↦
  match (i.columns.zip parameters).lookup column with
  | some value => s.bound value
  | none => s.unlisted column

/-- The insertion fits its parameters and a table with the key. -/
def Fits (i : Insertion) (keys : List String) (parameters : List Datum) : Prop :=
  i.columns.length = i.marks ∧ parameters.length = i.marks ∧ i.columns.Nodup ∧
    i.rule.assigned.Nodup ∧ ∀ target ∈ i.target, target.Perm keys

instance (i : Insertion) (keys : List String) (parameters : List Datum) :
    Decidable (i.Fits keys parameters) :=
  inferInstanceAs (Decidable (_ ∧ _ ∧ _ ∧ _ ∧ _))

end Insertion

end Sql

variable [DecidableEq β]

namespace KeyedTable

variable {keys required : List String}

/-- The table with the rows, unless they break its key or lack values. -/
def ofRows? (keys required : List String) (rows : List (StoredRow β)) :
    Option (KeyedTable β keys required) :=
  if h : (∀ row ∈ rows, CompleteOn required row) ∧
      rows.Pairwise fun row other ↦ ¬SameKey keys row other then
    some ⟨rows, h.1, h.2⟩
  else none

theorem ofRows?_rows (t : KeyedTable β keys required) : ofRows? keys required t.rows = some t :=
  dif_pos ⟨t.complete, t.distinct⟩

end KeyedTable

/-- The rows with a new one, unless there is a row with the same key, which is changed then. -/
def place (keys : List String) (new : StoredRow β) (change : StoredRow β → StoredRow β) :
    List (StoredRow β) → List (StoredRow β)
  | [] => [new]
  | old :: rest =>
    if SameKey keys old new then change old :: rest else old :: place keys new change rest

/-- What the insertion makes of a table, unless it is refused. -/
def Sql.Insertion.execute {keys required : List String} (i : Insertion) (s : Storing β)
    (parameters : List Datum) (t : KeyedTable β keys required) :
    Option (KeyedTable β keys required) :=
  let new := i.newRow s parameters
  if i.Fits keys parameters ∧ CompleteOn required new then
    KeyedTable.ofRows? keys required (place keys new (fun old ↦ i.rule.change new old) t.rows)
  else none

/-! ### Placing a row -/

section Place

variable {keys : List String} {new old : StoredRow β} {rows front back : List (StoredRow β)}
variable {change : StoredRow β → StoredRow β}

theorem place_of_absent (habsent : ∀ row ∈ rows, ¬SameKey keys row new) :
    place keys new change rows = rows ++ [new] := by
  induction rows with
  | nil => rfl
  | cons row rest ih =>
    obtain ⟨hrow, hrest⟩ := List.forall_mem_cons.mp habsent
    rw [place, if_neg hrow, ih hrest, List.cons_append]

theorem place_of_present
    (hdistinct : (front ++ old :: back).Pairwise fun row other ↦ ¬SameKey keys row other)
    (hold : SameKey keys old new) :
    place keys new change (front ++ old :: back) = front ++ change old :: back := by
  induction front with
  | nil => rw [List.nil_append, place, if_pos hold, List.nil_append]
  | cons row front ih =>
    obtain ⟨hrow, hrest⟩ := List.pairwise_cons.mp hdistinct
    have hother : ¬SameKey keys row new := fun hnew ↦
      hrow old (List.mem_append_right _ List.mem_cons_self) fun column hcolumn ↦
        (hnew column hcolumn).trans (hold column hcolumn).symm
    rw [List.cons_append, place, if_neg hother, ih hrest, List.cons_append]

/-- Only what the change makes of rows with the key of the new row matters. -/
theorem place_congr {other : StoredRow β → StoredRow β}
    (h : ∀ row, SameKey keys row new → change row = other row) (rows : List (StoredRow β)) :
    place keys new change rows = place keys new other rows := by
  induction rows with
  | nil => rfl
  | cons row rest ih =>
    rw [place, place, ih]
    by_cases hrow : SameKey keys row new
    · rw [if_pos hrow, if_pos hrow, h row hrow]
    · rw [if_neg hrow, if_neg hrow]

/-- Placing a row keeps what all rows have in common, if the new row has it and changing a row keeps
it. -/
theorem forall_mem_place {p : StoredRow β → Prop} (hnew : p new)
    (hchange : ∀ row, p row → p (change row)) (hrows : ∀ row ∈ rows, p row) :
    ∀ row ∈ place keys new change rows, p row := by
  induction rows with
  | nil => simpa [place] using hnew
  | cons row rest ih =>
    obtain ⟨hrow, hrest⟩ := List.forall_mem_cons.mp hrows
    rw [place]
    split
    · exact List.forall_mem_cons.mpr ⟨hchange row hrow, hrest⟩
    · exact List.forall_mem_cons.mpr ⟨hrow, ih hrest⟩

/-- A change that leaves keys alone leaves them different. -/
theorem pairwise_place (hkeeps : KeepsKey keys change)
    (hrows : rows.Pairwise fun row other ↦ ¬SameKey keys row other) :
    (place keys new change rows).Pairwise fun row other ↦ ¬SameKey keys row other := by
  obtain habsent | ⟨front, old, back, rfl, hold⟩ := absent_or_present keys new rows
  · rw [place_of_absent habsent, List.pairwise_append]
    refine ⟨hrows, List.pairwise_singleton _ _, fun row hrow other hother ↦ ?_⟩
    rw [List.mem_singleton.mp hother]
    exact habsent row hrow
  · have hchanged (column : String) (hcolumn : column ∈ keys) := hkeeps old column hcolumn
    rw [place_of_present hrows hold]
    rw [List.pairwise_append, List.pairwise_cons] at hrows ⊢
    obtain ⟨hfront, ⟨hback, hpairs⟩, hacross⟩ := hrows
    refine ⟨hfront, ⟨fun other hother hsame ↦ ?_, hpairs⟩, fun row hrow other hother hsame ↦ ?_⟩
    · exact hback other hother fun column hcolumn ↦
        (hchanged column hcolumn).symm.trans (hsame column hcolumn)
    · obtain ⟨hbefore, hrest⟩ := List.forall_mem_cons.mp (hacross row hrow)
      rcases List.mem_cons.mp hother with rfl | hother
      · exact hbefore fun column hcolumn ↦
          (hsame column hcolumn).trans (hchanged column hcolumn)
      · exact hrest other hother hsame

/-- Where the change makes the same of a row again, placing the new row again changes nothing. -/
theorem place_place (hkeeps : KeepsKey keys change)
    (hrows : rows.Pairwise fun row other ↦ ¬SameKey keys row other)
    (hnew : change new = new) (hagain : ∀ row, change (change row) = change row) :
    place keys new change (place keys new change rows) = place keys new change rows := by
  have hdistinct : (place keys new change rows).Pairwise fun row other ↦ ¬SameKey keys row other :=
    pairwise_place hkeeps hrows
  obtain habsent | ⟨front, old, back, rfl, hold⟩ := absent_or_present keys new rows
  · rw [place_of_absent habsent] at hdistinct ⊢
    rw [place_of_present hdistinct fun _ _ ↦ rfl, hnew]
  · rw [place_of_present hrows hold] at hdistinct ⊢
    have hchanged : SameKey keys (change old) new := fun column hcolumn ↦
      (hkeeps old column hcolumn).trans (hold column hcolumn)
    rw [place_of_present hdistinct hchanged, hagain]

end Place

/-! ### What the insertions of the dialects do -/

namespace Storing

variable (s : Storing β) (row : Row) (keys : List String)

omit [DecidableEq β]

theorem keepsKey_overwritten : KeepsKey keys (s.overwritten row keys) :=
  fun _ _ hcolumn ↦ if_neg fun h ↦ h.2 hcolumn

theorem overwritten_newRow : s.overwritten row keys (s.newRow row) = s.newRow row := by
  funext column
  exact ite_self _

theorem overwritten_overwritten (old : StoredRow β) :
    s.overwritten row keys (s.overwritten row keys old) = s.overwritten row keys old := by
  funext column
  unfold overwritten
  split <;> rfl

theorem completeOn_overwritten {required : List String} (hnew : CompleteOn required (s.newRow row))
    {old : StoredRow β} (hold : CompleteOn required old) :
    CompleteOn required (s.overwritten row keys old) := by
  intro column hcolumn
  unfold overwritten
  split
  · exact hnew column hcolumn
  · exact hold column hcolumn

end Storing

namespace Sql

omit [DecidableEq β] in
/-- Replaced columns get their new values and the others keep theirs. -/
theorem change_conflictRule (new old : StoredRow β) (replaced : List String) (column : String) :
    (conflictRule replaced).change new old column =
      if column ∈ replaced then new column else old column := by
  have hassigned : (conflictRule replaced).change new old =
      replaced.foldl (fun row name ↦ Function.update row name (new name)) old := by
    unfold conflictRule
    split
    · next hnone =>
      rw [hnone]
      rfl
    · rw [ConflictRule.change, List.foldl_map]
  rw [hassigned]
  clear hassigned
  induction replaced generalizing old with
  | nil => simp
  | cons name rest ih =>
    rw [List.foldl_cons, ih]
    by_cases hname : column = name
    · simp [hname]
    · simp [hname]

omit [DecidableEq β] in
/-- To a row that has the key of the new one, the insertions of all dialects do the same. A key
column that one assigns to has its new value already. -/
theorem change_upsertOf (d : Dialect) (s : Storing β) (row : Row) (keys : List String)
    {old : StoredRow β} (hold : SameKey keys old (s.newRow row)) :
    (conflictRule (d.replacedColumns row.names keys)).change (s.newRow row) old =
      s.overwritten row keys old := by
  funext column
  rw [change_conflictRule, Storing.overwritten]
  by_cases hkeys : column ∈ keys
  · simp [hkeys, hold column hkeys]
  · simp [hkeys, mem_replacedColumns_iff d hkeys]

namespace Insertion

variable {d : Dialect} {table : String} {row : Row} {keys required : List String}

omit [DecidableEq β] in
theorem newRow_upsertOf (s : Storing β) :
    (upsertOf d table row.names keys).newRow s row.values = s.newRow row := by
  funext column
  simp only [newRow, upsertOf, row.zip_names_values]
  rfl

theorem fits_upsertOf : (upsertOf d table row.names keys).Fits keys row.values := by
  have honce : (conflictRule (d.replacedColumns row.names keys)).assigned.Nodup := by
    rw [assigned_conflictRule]
    exact nodup_replacedColumns d keys row.distinct
  refine ⟨rfl, row.length_values, row.distinct, honce, fun target htarget ↦ ?_⟩
  cases d with
  | mysql => cases htarget
  | sqlite =>
    cases htarget
    exact .refl keys
  | postgresql =>
    cases htarget
    exact .refl keys

end Insertion

end Sql

namespace KeyedTable

variable {keys required : List String} {s : Storing β} {row : Row}

/-- The table with a row upserted. -/
def upsert (t : KeyedTable β keys required) (s : Storing β) (row : Row)
    (hnew : CompleteOn required (s.newRow row)) : KeyedTable β keys required where
  rows := place keys (s.newRow row) (s.overwritten row keys) t.rows
  complete := forall_mem_place hnew (fun _ ↦ s.completeOn_overwritten row keys hnew) t.complete
  distinct := pairwise_place (s.keepsKey_overwritten row keys) t.distinct

variable {hnew : CompleteOn required (s.newRow row)}

theorem upserted_upsert (t : KeyedTable β keys required) :
    Upserted s row keys t.rows (t.upsert s row hnew).rows where
  inserted habsent := place_of_absent habsent
  overwritten {front back old} hrows hold := by
    have hdistinct := hrows ▸ t.distinct
    calc place keys (s.newRow row) (s.overwritten row keys) t.rows
        = place keys (s.newRow row) (s.overwritten row keys) (front ++ old :: back) := by rw [hrows]
      _ = front ++ s.overwritten row keys old :: back := place_of_present hdistinct hold

theorem upsert_upsert (t : KeyedTable β keys required) :
    (t.upsert s row hnew).upsert s row hnew = t.upsert s row hnew := by
  have hrows := place_place (s.keepsKey_overwritten row keys) t.distinct
    (s.overwritten_newRow row keys) (s.overwritten_overwritten row keys)
  simp only [upsert, hrows]

end KeyedTable

/-- What the library's insertions do to a table. -/
theorem Sql.Insertion.execute_upsertOf (d : Dialect) (table : String) {row : Row}
    {keys required : List String} (s : Storing β) (t : KeyedTable β keys required) :
    (upsertOf d table row.names keys).execute s row.values t =
      if hnew : CompleteOn required (s.newRow row) then some (t.upsert s row hnew) else none := by
  have hplace : place keys (s.newRow row)
      (fun old ↦ (upsertOf d table row.names keys).rule.change (s.newRow row) old) t.rows =
        place keys (s.newRow row) (s.overwritten row keys) t.rows :=
    place_congr (fun old hold ↦ change_upsertOf d s row keys hold) t.rows
  simp only [execute, newRow_upsertOf, fits_upsertOf, true_and, hplace]
  split
  · next hnew => exact KeyedTable.ofRows?_rows (t.upsert s row hnew)
  · rfl

/-! ### Upserts of rows -/

/-- The insertion lists the columns of a row, with one mark for each value, and if the row exists
assigns to those outside the key, in order. If there are none, MySQL assigns to the first column of
the key. What is assigned to a column is its own new value. -/
structure Sql.Insertion.Writes (i : Insertion) (d : Dialect) (table : String) (row : Row)
    (keys : List String) : Prop where
  table : i.table = table
  columns : i.columns = row.names
  marks : i.marks = row.values.length
  assigned : row.names.filter (· ∉ keys) ≠ [] →
    i.rule = .overwrite ((row.names.filter (· ∉ keys)).map fun column ↦ (column, column))
  nothing : row.names.filter (· ∉ keys) = [] → d ≠ .mysql → i.rule = .keep
  first : row.names.filter (· ∉ keys) = [] → d = .mysql →
    ∀ key, keys.head? = some key → i.rule = .overwrite [(key, key)]

theorem Sql.writes_upsertOf (d : Dialect) (table : String) (row : Row) (keys : List String) :
    (upsertOf d table row.names keys).Writes d table row keys where
  table := rfl
  columns := rfl
  marks := row.length_values.symm
  assigned hsome := by
    rw [upsertOf, replacedColumns_eq, if_neg fun h ↦ hsome h.1, conflictRule, if_neg hsome]
  nothing hnone hd := by
    rw [upsertOf, replacedColumns_eq, if_neg fun h ↦ hd h.2, conflictRule, if_pos hnone]
  first hnone hd key hkey := by
    obtain ⟨rest, rfl⟩ := List.head?_eq_some_iff.mp hkey
    rw [upsertOf, replacedColumns_eq, if_pos ⟨hnone, hd⟩]
    rfl

/-- An upsert calls for one statement, whether it is granted or refused. -/
theorem Handle.callsIn_upsert {ω : Type} (handle : Handle) (storage : Storage ω) (table : String)
    (row : Row) (keys : List String) (state : ω) :
    callsIn (handle.upsert storage table row keys state).trace = [.execute handle.connection
      (handle.dialect.render (.upsert table row.names keys)) row.values] := by
  rcases hanswer : storage.execute handle.connection handle.dialect
    (.upsert table row.names keys) row.values state with ⟨answer, later⟩
  cases answer with
  | ok cursor =>
    rw [upsert_of_ok hanswer]
    rfl
  | error message =>
    obtain ⟨event, hupsert⟩ := upsert_of_error hanswer
    rw [hupsert]
    rfl

/-- Whatever the dialect, an upsert is one call, of a text that lists the columns of the row in
order and marks as many parameters as the call has values, and on conflict assigns to the columns
outside the key. Executed on a table with that key, the texts make the same of it: the row is
inserted or its columns outside the key are overwritten, and all else stays. Executed again they
change nothing. They are refused alike if the row lacks a value that is required. -/
theorem upserts_are_one_operation (table : String) (row : Row) {keys : List String}
    (hkeys : keys ≠ []) (hcontained : ∀ key ∈ keys, key ∈ row.names) :
    (∀ {ω : Type} (handle : Handle) (storage : Storage ω) (state : ω),
      callsIn (handle.upsert storage table row keys state).trace = [.execute handle.connection
        (handle.dialect.render (.upsert table row.names keys)) row.values]) ∧
    ∃ statement : Dialect → Sql.Insertion,
      (∀ d, Sql.ReadsAs d (d.render (.upsert table row.names keys)) (statement d) ∧
        ((∀ name ∈ table :: row.names, Sql.isWord name = true) →
          Sql.scanInsertion d (d.render (.upsert table row.names keys)) = some (statement d)) ∧
        (statement d).Writes d table row keys) ∧
      ∀ {β : Type} [DecidableEq β] {required : List String} (s : Storing β)
        (t : KeyedTable β keys required),
        (CompleteOn required (s.newRow row) → ∃ after, Upserted s row keys t.rows after.rows ∧
          ∀ d, (statement d).execute s row.values t = some after ∧
            (statement d).execute s row.values after = some after) ∧
        (¬CompleteOn required (s.newRow row) →
          ∀ d, (statement d).execute s row.values t = none) := by
  have hcolumns : row.names ≠ [] := by
    obtain ⟨key, hkey⟩ := List.exists_mem_of_ne_nil keys hkeys
    exact List.ne_nil_of_mem (hcontained key hkey)
  refine ⟨fun handle storage ↦ handle.callsIn_upsert storage table row keys,
    fun d ↦ Sql.upsertOf d table row.names keys,
    fun d ↦ ⟨Sql.readsAs_upsert d table hcolumns hkeys, fun hwords ↦ ?_,
      Sql.writes_upsertOf d table row keys⟩, fun {β} _ {required} s t ↦ ?_⟩
  · refine Sql.scanInsertion_upsert d hcolumns hkeys fun name hname ↦ hwords name ?_
    rw [List.mem_cons, List.mem_append] at hname
    exact List.mem_cons.mpr (hname.imp_right fun h ↦ h.elim id (hcontained name))
  · refine ⟨fun hnew ↦ ⟨t.upsert s row hnew, t.upserted_upsert, fun d ↦ ?_⟩, fun hmissing d ↦ ?_⟩
    · have hexecute (t : KeyedTable β keys required) :
          (Sql.upsertOf d table row.names keys).execute s row.values t =
            some (t.upsert s row hnew) := by
        rw [Sql.Insertion.execute_upsertOf, dif_pos hnew]
      exact ⟨hexecute t, by rw [hexecute, t.upsert_upsert]⟩
    · rw [Sql.Insertion.execute_upsertOf, dif_neg hmissing]

/-- In a row with the key, columns that are listed are overwritten and others stay. -/
theorem archived_row_upserted :
    ∃ statement : Dialect → Sql.Insertion,
      ∃ after : KeyedTable Int ["aa_archive"] ["aa_archive"],
        (∀ d, Sql.scanInsertion d (d.render
            (.upsert "archive_actor" ["aa_archive", "aa_actor"] ["aa_archive"])) =
              some (statement d) ∧
          (statement d).execute ⟨Datum.integer?, fun _ ↦ none⟩ [.int 5, .int 1]
            ⟨[fun column ↦ [("aa_archive", 5), ("aa_actor", 9), ("aa_count", 3)].lookup column],
              by decide, List.pairwise_singleton _ _⟩ = some after) ∧
        after.rows.map (["aa_archive", "aa_actor", "aa_count"].map ·) =
          [[some 5, some 1, some 3]] := by
  have hwords : ∀ name ∈ ["archive_actor", "aa_archive", "aa_actor"], Sql.isWord name = true := by
    decide
  have hkeys : ["aa_archive"] ≠ [] := by decide
  have hcontained : ∀ key ∈ ["aa_archive"], key ∈ ["aa_archive", "aa_actor"] := by decide
  obtain ⟨-, statement, hstatement, hexecute⟩ := upserts_are_one_operation "archive_actor"
    ⟨[("aa_archive", .int 5), ("aa_actor", .int 1)], by decide⟩ hkeys hcontained
  obtain ⟨after, hafter, hsame⟩ := (@hexecute Int _ ["aa_archive"] ⟨Datum.integer?, fun _ ↦ none⟩
    ⟨[fun column ↦ [("aa_archive", 5), ("aa_actor", 9), ("aa_count", 3)].lookup column],
      by decide, List.pairwise_singleton _ _⟩).1 (by decide)
  have hrows : after.rows = [] ++ _ :: [] := hafter.overwritten rfl (by decide)
  exact ⟨statement, after, fun d ↦ ⟨(hstatement d).2.1 hwords, (hsame d).1⟩, by rw [hrows]; rfl⟩

end StagedColumns
