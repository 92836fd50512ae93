import Mathlib.Data.List.Nodup
import StagedColumns.Proofs.Query.DatabaseStorage
import StagedColumns.Proofs.Query.Upsert

/-!
# What is executed is what is read

`Handle.Reaches` says what the statements that a connection is handed do to the tables of a
database. A database gets texts, though, and does what it reads in them. Here the text of an
insertion is read, with or without a rule for rows that exist, and what it says is run on the tables
(`Sql.Command.run`). A connection that reaches a database does just that with the statements that
the library writes (`Handle.Reaches.executes_text`).
-/

set_option autoImplicit false

namespace StagedColumns

namespace Sql

/-! ### Reading statements -/

/-- What a statement has a database do: insert a row, which is refused if its key is there, or
insert it by a rule for that. -/
inductive Command
  | insert (table : String) (columns : List String) (marks : Nat)
  | upsert (i : Insertion)

/-- The insertion that lexemes make up where nothing follows its parameters. -/
def readInsert (d : Dialect) (lexemes : List Lexeme) : Option Command := do
  match ← afterWords ["INSERT", "INTO"] lexemes with
  | [] => none
  | table :: rest =>
    let (columns, rest) ← readNames rest
    let (marks, rest) ← readMarks d (← afterWords ["VALUES"] rest)
    if rest = [] then return .insert (← table.name?) columns marks else none

/-- The command that lexemes make up. -/
def readCommand (d : Dialect) (lexemes : List Lexeme) : Option Command :=
  (readInsert d lexemes).or ((readInsertion d lexemes).map .upsert)

/-- The command that a text says. -/
def scanCommand (d : Dialect) (text : String) : Option Command := do
  readCommand d (withoutGaps (← scan d text.toList))

/-- The text, in which there are the names, says the command. Where the names are words it can be
cut in one way only; otherwise they may stand for themselves whatever characters they have. -/
structure Says (d : Dialect) (text : String) (names : List String) (command : Command) : Prop where
  spelled : ∃ lexemes, Sql.spelled lexemes = text.toList ∧
    readCommand d (withoutGaps lexemes) = some command
  scanned : (∀ name ∈ names, isWord name = true) → scanCommand d text = some command

section Says

variable {d : Dialect} {text table : String} {names columns keys : List String}
variable {command : Command}

theorem says_of_lexemes (lexemes : List Lexeme) (hspelled : spelled lexemes = text.toList)
    (hread : readCommand d (withoutGaps lexemes) = some command)
    (hstable : (∀ name ∈ names, isWord name = true) → Stable d lexemes) :
    Says d text names command where
  spelled := ⟨lexemes, hspelled, hread⟩
  scanned hwords := by
    rw [scanCommand, ← hspelled, hstable hwords]
    exact hread

theorem readInsert_insertionLexemes (d : Dialect) (table : String) (hcolumns : columns ≠ [])
    (rest : List Lexeme) : readInsert d (withoutGaps (insertionLexemes d table columns rest)) =
      if withoutGaps rest = [] then some (.insert table columns columns.length) else none := by
  have hcount : columns.length ≠ 0 := by simpa using hcolumns
  rw [withoutGaps_insertionLexemes, readInsert, afterWords_map isWord_insert]
  simp only [Option.bind_eq_bind, Option.bind_some, readNames_inParentheses hcolumns,
    afterWords_map isWord_values, readMarks_inParentheses d hcount, name?_ofWord]
  rfl

theorem says_insert (hcolumns : columns ≠ []) :
    Says d (d.render (.insert table columns)) (table :: columns)
      (.insert table columns columns.length) := by
  refine says_of_lexemes (insertionLexemes d table columns []) ?_ ?_ fun hwords ↦
    .insertion hwords .nil
  · rw [spelled_insertionLexemes]
    exact List.append_nil _
  · rw [readCommand, readInsert_insertionLexemes d table hcolumns]
    rfl

theorem says_upsert (hcolumns : columns ≠ []) (hkeys : keys ≠ []) :
    Says d (d.render (.upsert table columns keys)) (table :: (columns ++ keys))
      (.upsert (upsertOf d table columns keys)) := by
  refine says_of_lexemes (upsertLexemes d table columns keys)
    (spelled_upsertLexemes d table columns keys) ?_ .upsert
  have hrest : withoutGaps (.gap :: conflictLexemes d (d.replacedColumns columns keys) keys) ≠ [] := by
    rw [withoutGaps_gap]
    cases d <;> exact List.cons_ne_nil _ _
  rw [readCommand, readInsertion_upsertLexemes d table hcolumns hkeys, upsertLexemes,
    readInsert_insertionLexemes d table hcolumns, if_neg hrest]
  rfl

end Says

/-! ### Running commands -/

/-- What the rule makes of a row that has the key of the new one. -/
def ConflictRule.rewrite (new old : Row) : ConflictRule → Row
  | keep => old
  | overwrite assignments =>
    old.putAll (assignments.map fun assignment ↦ (assignment.1, cell new assignment.2))

end Sql

/-- The rows with a new one, unless there is a row with the same key, of which the first one is
changed then. -/
def placeRow (keys : List String) (new : Row) (change : Row → Row) : List Row → List Row
  | [] => [new]
  | old :: rest =>
    if agreeOn keys old new then change old :: rest else old :: placeRow keys new change rest

/-- What the command makes of a database, of which the primary keys of the tables are known, unless
it is refused. -/
def Sql.Command.run (primary : String → List String) (parameters : List Datum) (db : Database) :
    Command → Option Database
  | insert table columns marks =>
    let row := OrderedMap.ofList (columns.zip parameters)
    if columns.length = marks ∧ parameters.length = marks ∧ columns.Nodup ∧
        ∀ other ∈ db.rows table, agreeOn (primary table) other row = false then
      some (db.insert table row)
    else none
  | upsert i =>
    let row := OrderedMap.ofList (i.columns.zip parameters)
    if i.Fits (primary i.table) parameters then
      some (db.change i.table (placeRow (primary i.table) row fun old ↦ i.rule.rewrite row old))
    else none

theorem Sql.Command.run_upsert {primary : String → List String} {parameters : List Datum}
    {db : Database} {i : Insertion} (hfits : i.Fits (primary i.table) parameters) :
    (Command.upsert i).run primary parameters db =
      some (db.change i.table (placeRow (primary i.table)
        (OrderedMap.ofList (i.columns.zip parameters))
        fun old ↦ i.rule.rewrite (OrderedMap.ofList (i.columns.zip parameters)) old)) :=
  if_pos hfits

theorem upsertRow_eq_placeRow (keys replaced : List String) (row : Row) (rows : List Row) :
    upsertRow keys replaced row rows = placeRow keys row (fun other ↦ other.putAll
      (row.entries.filter fun entry ↦ replaced.contains entry.1)) rows := by
  induction rows with
  | nil => rfl
  | cons other rest ih => rw [upsertRow, placeRow, ih]

/-- The entries of a row are its names with their cells. -/
theorem entries_eq_map_cell (row : Row) :
    row.entries = row.names.map fun name ↦ (name, cell row name) := by
  rw [OrderedMap.names, List.map_map]
  refine (List.map_id row.entries).symm.trans (List.map_congr_left fun entry hentry ↦ ?_)
  have hcell : row.get? entry.1 = some entry.2 := (row.get?_eq_some_iff_mem _ _).mpr hentry
  rw [Function.comp_apply, cell, hcell]
  rfl

/-- Of the names of a row the replaced columns are those that are replaced, in order. -/
theorem filter_names_replacedColumns (d : Dialect) {row : Row} {keys : List String}
    (hcontained : ∀ key ∈ keys, key ∈ row.names) :
    row.names.filter (fun name ↦ (d.replacedColumns row.names keys).contains name) =
      d.replacedColumns row.names keys := by
  rw [Sql.replacedColumns_eq]
  split
  · cases keys with
    | nil => simp
    | cons key rest =>
      have hkey : row.names.count key = 1 :=
        List.count_eq_one_of_mem row.distinct (hcontained key List.mem_cons_self)
      have hsame : (fun name ↦ ((key :: rest).take 1).contains name) = (· == key) := by
        funext name
        simp [Bool.beq_eq_decide_eq]
      rw [hsame, List.filter_beq, hkey]
      rfl
  · refine List.filter_congr fun name hname ↦ ?_
    simp [hname]

/-- In a row with the key, the rule of an upsert writes over the replaced columns. -/
theorem Sql.rewrite_conflictRule (d : Dialect) {row : Row} {keys : List String}
    (hcontained : ∀ key ∈ keys, key ∈ row.names) (old : Row) :
    (conflictRule (d.replacedColumns row.names keys)).rewrite row old =
      old.putAll (row.entries.filter fun entry ↦
        (d.replacedColumns row.names keys).contains entry.1) := by
  have hentries : row.entries.filter
      (fun entry ↦ (d.replacedColumns row.names keys).contains entry.1) =
        (d.replacedColumns row.names keys).map fun name ↦ (name, cell row name) := by
    rw [entries_eq_map_cell row, List.filter_map]
    exact congrArg _ (filter_names_replacedColumns d hcontained)
  rw [hentries]
  unfold conflictRule
  split
  · next hnone =>
    rw [hnone]
    rfl
  · rw [ConflictRule.rewrite, List.map_map]
    rfl

/-- To place a row by the rule of an upsert is to upsert it. -/
theorem Sql.placeRow_conflictRule (d : Dialect) {row : Row} {keys : List String}
    (hcontained : ∀ key ∈ keys, key ∈ row.names) :
    placeRow keys row
        (fun old ↦ (conflictRule (d.replacedColumns row.names keys)).rewrite row old) =
      upsertRow keys (d.replacedColumns row.names keys) row := by
  funext rows
  rw [upsertRow_eq_placeRow]
  exact congrArg (placeRow keys row · rows) (funext (rewrite_conflictRule d hcontained))

theorem Sql.run_upsertOf {primary : String → List String} (d : Dialect) (db : Database)
    (table : String) {row : Row} (hcontained : ∀ key ∈ primary table, key ∈ row.names) :
    (Command.upsert (upsertOf d table row.names (primary table))).run primary row.values db =
      some (db.upsert d table row (primary table)) := by
  have hfits : (upsertOf d table row.names (primary table)).Fits (primary table) row.values :=
    Insertion.fits_upsertOf
  have hrow : OrderedMap.ofList
      ((upsertOf d table row.names (primary table)).columns.zip row.values) = row := ofList_zip row
  rw [Command.run_upsert hfits, hrow]
  exact congrArg (fun place ↦ some (db.change table place)) (placeRow_conflictRule d hcontained)

/-! ### Connections -/

/-- The statement inserts the row as the library does it: with a column at least, and where it has a
rule for rows that exist with a value for each column of the primary key. -/
inductive Statement.Inserts (primary : String → List String) (row : Row) : Statement → Prop
  | insert (table : String) (hsome : row.names ≠ []) : Inserts primary row (.insert table row.names)
  | upsert (table : String) (hkeys : primary table ≠ [])
    (hcontained : ∀ key ∈ primary table, key ∈ row.names) :
    Inserts primary row (.upsert table row.names (primary table))

/-- The names in a statement. -/
def Statement.names : Statement → List String
  | text _ => []
  | insert table columns => table :: columns
  | upsert table columns keys => table :: (columns ++ keys)

/-- The text of a statement says a command, and unless the database refuses that, a connection that
reaches the database does with the statement what the command says. -/
theorem Handle.Reaches.executes_text {ω : Type} {h : Handle} {storage : Storage ω}
    {content : ω → Database} {primary : String → List String}
    (hreaches : h.Reaches storage content primary) {statement : Statement} {row : Row}
    (hinserts : statement.Inserts primary row) :
    ∃ command, Sql.Says h.dialect (h.dialect.render statement) statement.names command ∧
      ∀ state after, command.run primary row.values (content state) = some after →
        ∃ cursor later, storage.execute h.connection h.dialect statement row.values state =
          (.ok cursor, later) ∧ content later = after := by
  cases hinserts with
  | insert table hsome =>
    refine ⟨_, Sql.says_insert hsome, fun state after hrun ↦ ?_⟩
    simp only [Sql.Command.run, ofList_zip] at hrun
    split_ifs at hrun with hfresh
    cases hrun
    exact hreaches.insert hfresh.2.2.2
  | upsert table hkeys hcontained =>
    have hcolumns : row.names ≠ [] := by
      obtain ⟨key, hkey⟩ := List.exists_mem_of_ne_nil _ hkeys
      exact List.ne_nil_of_mem (hcontained key hkey)
    refine ⟨_, Sql.says_upsert hcolumns hkeys, fun state after hrun ↦ ?_⟩
    rw [Sql.run_upsertOf h.dialect (content state) table hcontained] at hrun
    cases hrun
    exact hreaches.upsert

end StagedColumns
