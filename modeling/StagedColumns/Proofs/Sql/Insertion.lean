import StagedColumns.Proofs.Sql.Lexeme
import StagedColumns.Sql.Statement

/-!
# Reading insertions

How a database reads the text of an insertion that says what is to be done if the row exists. In
SQLite and PostgreSQL it names the key whose columns decide that, and either keeps the row or
overwrites some of its columns with those of the row that was to be inserted, which there is called
`excluded`. MySQL has no key to name, always overwrites something, and has `VALUES` for the new row.

The text that the library writes is read as the insertion that it was written for
(`readsAs_upsert`), whatever the names in it are, which are taken as they stand. Where they are
words, the database cannot read anything else (`scanInsertion_upsert`).
-/

set_option autoImplicit false

namespace StagedColumns.Sql

/-- What an insertion does with a row that has the key of the new one. -/
inductive ConflictRule
  | keep
  /-- Columns get the values that columns have in the new row. -/
  | overwrite (assignments : List (String × String))
deriving DecidableEq

namespace ConflictRule

/-- The columns that are assigned something, in order. -/
def assigned : ConflictRule → List String
  | keep => []
  | overwrite assignments => assignments.map Prod.fst

end ConflictRule

/-- An insertion of one row. -/
structure Insertion where
  table : String
  columns : List String
  /-- The number of parameters that make up the row. -/
  marks : Nat
  /-- The key that is named, if one is. -/
  target : Option (List String)
  rule : ConflictRule
deriving DecidableEq

/-! ### The reader -/

namespace Lexeme

/-- The name that the lexeme is. -/
def name? (l : Lexeme) : Option String :=
  if l.kind = .word ∨ l.kind = .quoted then some (String.ofList l.chars) else none

end Lexeme

/-- What follows the words. -/
def afterWords : List String → List Lexeme → Option (List Lexeme)
  | [], rest => some rest
  | _ :: _, [] => none
  | word :: words, l :: rest => if l.isWord word then afterWords words rest else none

/-- The items in parentheses, which are separated by commas, and what follows them. -/
def readItems : List Lexeme → Option (List (List Lexeme) × List Lexeme)
  | [] => none
  | first :: rest =>
    if first = .opening then
      match rest.takeWhile (· ≠ .closing), rest.dropWhile (· ≠ .closing) with
      | items, _ :: following => some (items.splitOn .comma, following)
      | _, [] => none
    else none

/-- The name that an item is. -/
def itemName? : List Lexeme → Option String
  | [l] => l.name?
  | _ => none

/-- The names in parentheses, and what follows them. -/
def readNames (lexemes : List Lexeme) : Option (List String × List Lexeme) := do
  let (items, rest) ← readItems lexemes
  return (← items.mapM itemName?, rest)

/-- The item is the mark of a parameter. -/
def isMark (d : Dialect) (item : List Lexeme) : Bool :=
  match d with
  | .sqlite => item = [⟨.sign, ['?']⟩]
  | .postgresql | .mysql => item = [⟨.sign, ['%']⟩, .ofWord "s"]

/-- The number of parameters marked in parentheses, and what follows them. -/
def readMarks (d : Dialect) (lexemes : List Lexeme) : Option (Nat × List Lexeme) := do
  let (items, rest) ← readItems lexemes
  if items.all (isMark d) then return (items.length, rest) else none

/-- The column of the new row that is meant. -/
def newValueOf? (d : Dialect) (source : List Lexeme) : Option String :=
  match d, source with
  | .mysql, [word, first, column, last] =>
    if word.isWord "VALUES" ∧ first = .opening ∧ last = .closing then column.name? else none
  | .sqlite, [l] | .postgresql, [l] =>
    if (Lexeme.mk l.kind (l.chars.take 9)).isWord "EXCLUDED." then
      some (String.ofList (l.chars.drop 9))
    else none
  | _, _ => none

/-- The assignment that an item is. -/
def assignment? (d : Dialect) : List Lexeme → Option (String × String)
  | column :: sign :: source => do
    if sign.isSign '=' then return (← column.name?, ← newValueOf? d source) else none
  | _ => none

/-- The assignments, which are separated by commas. -/
def readAssignments (d : Dialect) (lexemes : List Lexeme) : Option ConflictRule :=
  ((lexemes.splitOn .comma).mapM (assignment? d)).map .overwrite

/-- What is to be done where a key is named. -/
def readAction (d : Dialect) (lexemes : List Lexeme) : Option ConflictRule :=
  if afterWords ["NOTHING"] lexemes = some [] then some .keep
  else afterWords ["UPDATE", "SET"] lexemes >>= readAssignments d

/-- What is to be done if the row exists: the key that is named, and the rule. -/
def readConflict (d : Dialect) (lexemes : List Lexeme) :
    Option (Option (List String) × ConflictRule) :=
  match d with
  | .mysql => do
    let rest ← afterWords ["ON", "DUPLICATE", "KEY", "UPDATE"] lexemes
    return (none, ← readAssignments .mysql rest)
  | .sqlite | .postgresql => do
    let (target, rest) ← readNames (← afterWords ["ON", "CONFLICT"] lexemes)
    return (some target, ← readAction d (← afterWords ["DO"] rest))

/-- The insertion that lexemes make up. -/
def readInsertion (d : Dialect) (lexemes : List Lexeme) : Option Insertion := do
  match ← afterWords ["INSERT", "INTO"] lexemes with
  | [] => none
  | table :: rest =>
    let (columns, rest) ← readNames rest
    let (marks, rest) ← readMarks d (← afterWords ["VALUES"] rest)
    let (target, rule) ← readConflict d rest
    return ⟨← table.name?, columns, marks, target, rule⟩

/-- The insertion that a text says. -/
def scanInsertion (d : Dialect) (text : String) : Option Insertion := do
  readInsertion d (withoutGaps (← scan d text.toList))

/-- The text is spelled by lexemes that make up the insertion. Its names may stand for themselves
whatever characters they have. -/
def ReadsAs (d : Dialect) (text : String) (i : Insertion) : Prop :=
  ∃ lexemes, spelled lexemes = text.toList ∧ readInsertion d (withoutGaps lexemes) = some i

/-! ### The columns that are replaced -/

/-- The columns outside the key are replaced. If there are none, MySQL has the first column of the
key replaced. -/
theorem replacedColumns_eq (d : Dialect) (columns keys : List String) :
    d.replacedColumns columns keys =
      if columns.filter (· ∉ keys) = [] ∧ d = .mysql then keys.take 1
      else columns.filter (· ∉ keys) := by
  have hfilter : columns.filter (fun column ↦ !keys.contains column) =
      columns.filter (· ∉ keys) := by
    simp
  unfold Dialect.replacedColumns
  rw [hfilter]
  split
  · next hnone => rw [if_pos ⟨hnone, rfl⟩]
  · next hother =>
    rw [if_neg]
    rintro ⟨hnone, rfl⟩
    exact hother hnone rfl

theorem mem_replacedColumns_iff (d : Dialect) {columns keys : List String} {column : String}
    (hkeys : column ∉ keys) : column ∈ d.replacedColumns columns keys ↔ column ∈ columns := by
  rw [replacedColumns_eq]
  split
  · next hnone =>
    have htaken : column ∉ keys.take 1 := fun h ↦ hkeys (List.mem_of_mem_take h)
    have hcolumn : column ∉ columns := fun h ↦
      List.filter_eq_nil_iff.mp hnone.1 column h (decide_eq_true hkeys)
    exact iff_of_false htaken hcolumn
  · simp [hkeys]

theorem nodup_replacedColumns (d : Dialect) {columns : List String} (keys : List String)
    (hcolumns : columns.Nodup) : (d.replacedColumns columns keys).Nodup := by
  rw [replacedColumns_eq]
  split
  · cases keys <;> simp
  · exact hcolumns.filter _

theorem mem_of_mem_replacedColumns {d : Dialect} {columns keys : List String} {name : String}
    (h : name ∈ d.replacedColumns columns keys) : name ∈ columns ∨ name ∈ keys := by
  rw [replacedColumns_eq] at h
  split at h
  · exact .inr (List.mem_of_mem_take h)
  · exact .inl (List.mem_filter.mp h).1

/-! ### The lexemes of a text that the library writes -/

/-- Items with commas between them. -/
def listed (items : List (List Lexeme)) : List Lexeme :=
  [.comma, .gap].intercalate items

/-- Words that are followed by something. -/
def spaced (words : List String) (rest : List Lexeme) : List Lexeme :=
  words.flatMap (fun word ↦ [.ofWord word, .gap]) ++ rest

/-- The mark of a parameter. -/
def markLexemes : Dialect → List Lexeme
  | .sqlite => [⟨.sign, ['?']⟩]
  | .postgresql | .mysql => [⟨.sign, ['%']⟩, .ofWord "s"]

/-- The value of a column in the new row. -/
def newValueLexemes (d : Dialect) (column : String) : List Lexeme :=
  match d with
  | .sqlite => [.ofWord ("excluded." ++ column)]
  | .postgresql => [.ofWord ("EXCLUDED." ++ column)]
  | .mysql => .ofWord "VALUES" :: Lexeme.inParentheses [.ofWord column]

/-- The assignment of its new value to a column. -/
def assignmentLexemes (d : Dialect) (column : String) : List Lexeme :=
  spaced [column] (⟨.sign, ['=']⟩ :: .gap :: newValueLexemes d column)

/-- The key that is named, and what is to be done. -/
def targetLexemes (keys : List String) (rest : List Lexeme) : List Lexeme :=
  spaced ["ON", "CONFLICT"]
    (Lexeme.inParentheses (listed (keys.map ([.ofWord ·]))) ++ .gap :: spaced ["DO"] rest)

/-- What is to be done where a key is named. -/
def actionLexemes (d : Dialect) (replaced : List String) : List Lexeme :=
  if replaced = [] then [.ofWord "NOTHING"]
  else spaced ["UPDATE", "SET"] (listed (replaced.map (assignmentLexemes d)))

/-- What is to be done if the row exists. -/
def conflictLexemes (d : Dialect) (replaced keys : List String) : List Lexeme :=
  match d with
  | .mysql => spaced ["ON", "DUPLICATE", "KEY", "UPDATE"]
      (listed (replaced.map (assignmentLexemes .mysql)))
  | .sqlite | .postgresql => targetLexemes keys (actionLexemes d replaced)

/-- The insertion of a row with the columns, and what follows it. -/
def insertionLexemes (d : Dialect) (table : String) (columns : List String) (rest : List Lexeme) :
    List Lexeme :=
  spaced ["INSERT", "INTO", table] (Lexeme.inParentheses (listed (columns.map ([.ofWord ·]))) ++
    .gap :: spaced ["VALUES"]
      (Lexeme.inParentheses (listed (List.replicate columns.length (markLexemes d))) ++ rest))

/-- The insertion of a row with the columns, and what is to be done if the row exists. -/
def upsertLexemes (d : Dialect) (table : String) (columns keys : List String) : List Lexeme :=
  insertionLexemes d table columns
    (.gap :: conflictLexemes d (d.replacedColumns columns keys) keys)

theorem spelled_gap (rest : List Lexeme) : spelled (.gap :: rest) = ' ' :: spelled rest :=
  rfl

theorem spelled_inParentheses (lexemes rest : List Lexeme) :
    spelled (Lexeme.inParentheses lexemes ++ rest) =
      '(' :: (spelled lexemes ++ ')' :: spelled rest) := by
  simp [spelled, Lexeme.inParentheses, Lexeme.opening, Lexeme.closing]

theorem spelled_spaced (words : List String) (rest : List Lexeme) :
    spelled (spaced words rest) =
      words.flatMap (fun word ↦ word.toList ++ [' ']) ++ spelled rest := by
  rw [spaced, spelled_append]
  congr 1
  rw [spelled, List.flatMap_assoc]
  rfl

theorem spelled_listed (items : List (List Lexeme)) :
    spelled (listed items) = [',', ' '].intercalate (items.map spelled) := by
  induction items with
  | nil => rfl
  | cons item items ih =>
    cases items with
    | nil => simp [listed]
    | cons next items =>
      have hcomma : spelled [.comma, .gap] = [',', ' '] := rfl
      rw [listed, List.intercalate_cons_cons, ← listed, spelled_append, spelled_append, ih, hcomma,
        List.map_cons, List.map_cons, List.map_cons, List.intercalate_cons_cons]

theorem spelled_names (names : List String) :
    spelled (listed (names.map ([.ofWord ·]))) = (", ".intercalate names).toList := by
  rw [spelled_listed, String.toList_intercalate, List.map_map]
  congr 1
  exact List.map_congr_left fun name _ ↦ by simp [spelled, Lexeme.ofWord]

theorem spelled_marks (d : Dialect) (count : Nat) :
    spelled (listed (List.replicate count (markLexemes d))) = (d.parameterMarks count).toList := by
  have hmark : spelled (markLexemes d) = d.parameterMark.toList := by
    cases d <;> rfl
  rw [spelled_listed, Dialect.parameterMarks, String.toList_intercalate, List.map_replicate,
    List.map_replicate, hmark]
  rfl

theorem spelled_newValue (d : Dialect) (column : String) :
    spelled (newValueLexemes d column) = (d.insertedValue column).toList := by
  cases d with
  | sqlite => simp only [newValueLexemes, Dialect.insertedValue, spelled, Lexeme.ofWord,
      List.flatMap_cons, List.flatMap_nil, List.append_nil]
  | postgresql => simp only [newValueLexemes, Dialect.insertedValue, spelled, Lexeme.ofWord,
      List.flatMap_cons, List.flatMap_nil, List.append_nil]
  | mysql =>
    have hvalues : "VALUES(".toList = "VALUES".toList ++ ['('] := rfl
    have hend : ")".toList = [')'] := rfl
    simp only [newValueLexemes, Dialect.insertedValue, String.toList_append, hvalues, hend]
    simp only [spelled, Lexeme.inParentheses, Lexeme.opening, Lexeme.closing, Lexeme.ofWord,
      List.flatMap_cons, List.flatMap_append, List.flatMap_nil, List.append_assoc]
    rfl

theorem spelled_assignments (d : Dialect) (replaced : List String) :
    spelled (listed (replaced.map (assignmentLexemes d))) = (d.assignments replaced).toList := by
  have hequals : " = ".toList = [' ', '=', ' '] := rfl
  have hassignment (column : String) : spelled (assignmentLexemes d column) =
      (column ++ " = " ++ d.insertedValue column).toList := by
    rw [assignmentLexemes, spelled_spaced, String.toList_append, String.toList_append, hequals,
      ← spelled_newValue]
    simp [spelled, Lexeme.gap]
  rw [spelled_listed, Dialect.assignments, String.toList_intercalate, List.map_map, List.map_map]
  congr 1
  exact List.map_congr_left fun column _ ↦ hassignment column

theorem spelled_target (keys : List String) (rest : List Lexeme) :
    ' ' :: spelled (targetLexemes keys rest) =
      (" ON CONFLICT (" ++ ", ".intercalate keys ++ ") DO ").toList ++ spelled rest := by
  have hfront : " ON CONFLICT (".toList =
      ' ' :: ["ON", "CONFLICT"].flatMap (fun word ↦ word.toList ++ [' ']) ++ ['('] := rfl
  have hback : ") DO ".toList =
      ')' :: ' ' :: ["DO"].flatMap (fun word ↦ word.toList ++ [' ']) := rfl
  rw [targetLexemes, spelled_spaced, spelled_inParentheses, spelled_gap, spelled_spaced,
    spelled_names, String.toList_append, String.toList_append, hfront, hback]
  simp only [List.append_assoc, List.cons_append, List.nil_append]

theorem spelled_update (d : Dialect) (replaced : List String) :
    spelled (spaced ["UPDATE", "SET"] (listed (replaced.map (assignmentLexemes d)))) =
      ("UPDATE SET " ++ d.assignments replaced).toList := by
  have hupdate : "UPDATE SET ".toList =
      ["UPDATE", "SET"].flatMap (fun word ↦ word.toList ++ [' ']) := rfl
  rw [spelled_spaced, spelled_assignments, String.toList_append, hupdate]

theorem spelled_duplicate (replaced : List String) :
    ' ' :: spelled (spaced ["ON", "DUPLICATE", "KEY", "UPDATE"]
        (listed (replaced.map (assignmentLexemes .mysql)))) =
      (" ON DUPLICATE KEY UPDATE " ++ Dialect.mysql.assignments replaced).toList := by
  have hduplicate : " ON DUPLICATE KEY UPDATE ".toList = ' ' ::
      ["ON", "DUPLICATE", "KEY", "UPDATE"].flatMap (fun word ↦ word.toList ++ [' ']) := rfl
  rw [spelled_spaced, spelled_assignments, String.toList_append, hduplicate, List.cons_append]

theorem spelled_conflict (d : Dialect) (replaced keys : List String) :
    ' ' :: spelled (conflictLexemes d replaced keys) = (d.onConflict replaced keys).toList := by
  have hnothing : spelled [.ofWord "NOTHING"] = "NOTHING".toList := rfl
  cases d with
  | mysql => exact spelled_duplicate replaced
  | sqlite =>
    unfold conflictLexemes actionLexemes Dialect.onConflict
    by_cases hreplaced : replaced = []
    · simp only [hreplaced, if_true, spelled_target, hnothing, String.toList_append]
    · simp only [hreplaced, if_false, spelled_target, spelled_update, String.toList_append]
  | postgresql =>
    unfold conflictLexemes actionLexemes Dialect.onConflict
    by_cases hreplaced : replaced = []
    · simp only [hreplaced, if_true, spelled_target, hnothing, String.toList_append]
    · simp only [hreplaced, if_false, spelled_target, spelled_update, String.toList_append]

theorem spelled_insertionLexemes (d : Dialect) (table : String) (columns : List String)
    (rest : List Lexeme) : spelled (insertionLexemes d table columns rest) =
      (d.insertion table columns).toList ++ spelled rest := by
  have hinsert : "INSERT INTO ".toList =
      ["INSERT", "INTO"].flatMap (fun word ↦ word.toList ++ [' ']) := rfl
  have htable : ["INSERT", "INTO", table].flatMap (fun word ↦ word.toList ++ [' ']) =
      ["INSERT", "INTO"].flatMap (fun word ↦ word.toList ++ [' ']) ++ (table.toList ++ [' ']) := by
    simp only [List.flatMap_cons, List.flatMap_nil, List.append_assoc, List.append_nil]
  have hopening : " (".toList = [' ', '('] := rfl
  have hvalues : ") VALUES (".toList =
      ')' :: ' ' :: ["VALUES"].flatMap (fun word ↦ word.toList ++ [' ']) ++ ['('] := rfl
  have hclosing : ")".toList = [')'] := rfl
  rw [insertionLexemes, Dialect.insertion, spelled_spaced, spelled_inParentheses, spelled_gap,
    spelled_spaced, spelled_inParentheses, spelled_names, spelled_marks, htable]
  simp only [String.toList_append, hinsert, hopening, hvalues, hclosing, List.append_assoc,
    List.cons_append, List.nil_append]

/-- The lexemes spell the text that the library writes. -/
theorem spelled_upsertLexemes (d : Dialect) (table : String) (columns keys : List String) :
    spelled (upsertLexemes d table columns keys) =
      (d.render (.upsert table columns keys)).toList := by
  rw [upsertLexemes, spelled_insertionLexemes, spelled_gap, spelled_conflict, Dialect.render,
    String.toList_append]

/-! ### Reading the lexemes -/

theorem withoutGaps_gap (rest : List Lexeme) : withoutGaps (.gap :: rest) = withoutGaps rest :=
  rfl

theorem withoutGaps_inParentheses (lexemes rest : List Lexeme) :
    withoutGaps (Lexeme.inParentheses lexemes ++ rest) =
      Lexeme.inParentheses (withoutGaps lexemes) ++ withoutGaps rest := by
  simp [withoutGaps, Lexeme.inParentheses, Lexeme.opening, Lexeme.closing]

theorem withoutGaps_spaced (words : List String) (rest : List Lexeme) :
    withoutGaps (spaced words rest) = words.map .ofWord ++ withoutGaps rest := by
  rw [spaced, withoutGaps_append]
  congr 1
  induction words with
  | nil => rfl
  | cons word words ih =>
    rw [List.flatMap_cons, withoutGaps_append, ih]
    rfl

theorem withoutGaps_listed (items : List (List Lexeme)) :
    withoutGaps (listed items) = [Lexeme.comma].intercalate (items.map withoutGaps) := by
  induction items with
  | nil => rfl
  | cons item items ih =>
    cases items with
    | nil => simp [listed]
    | cons next items =>
      have hcomma : withoutGaps [.comma, .gap] = [.comma] := rfl
      rw [listed, List.intercalate_cons_cons, ← listed, withoutGaps_append, withoutGaps_append, ih,
        hcomma, List.map_cons, List.map_cons, List.map_cons, List.intercalate_cons_cons]

/-- Items that can stand in a list in parentheses. -/
structure Separable (items : List (List Lexeme)) : Prop where
  some : items ≠ []
  no_comma : ∀ item ∈ items, Lexeme.comma ∉ item
  no_closing : ∀ item ∈ items, Lexeme.closing ∉ item

theorem closing_not_mem_intercalate {items : List (List Lexeme)}
    (h : ∀ item ∈ items, Lexeme.closing ∉ item) :
    Lexeme.closing ∉ [Lexeme.comma].intercalate items := by
  induction items with
  | nil => nofun
  | cons item items ih =>
    obtain ⟨hitem, hitems⟩ := List.forall_mem_cons.mp h
    cases items with
    | nil => simpa using hitem
    | cons next items =>
      have hcomma : Lexeme.closing ≠ .comma := by decide
      rw [List.intercalate_cons_cons]
      simp [hitem, hcomma, ih hitems]

/-- Items in parentheses with commas between them are read as the items. -/
theorem readItems_inParentheses {items : List (List Lexeme)} (h : Separable items)
    (rest : List Lexeme) :
    readItems (Lexeme.inParentheses ([Lexeme.comma].intercalate items) ++ rest) =
      some (items, rest) := by
  have hinside : ∀ l ∈ [Lexeme.comma].intercalate items, decide (l ≠ Lexeme.closing) = true := by
    intro l hl
    refine decide_eq_true fun hclosing ↦ closing_not_mem_intercalate h.no_closing ?_
    exact hclosing ▸ hl
  have hlexemes : Lexeme.inParentheses ([Lexeme.comma].intercalate items) ++ rest =
      .opening :: ([Lexeme.comma].intercalate items ++ .closing :: rest) := by
    simp [Lexeme.inParentheses]
  rw [hlexemes, readItems, if_pos rfl, List.takeWhile_append_of_pos hinside,
    List.dropWhile_append_of_pos hinside]
  simp [List.splitOn_intercalate Lexeme.comma h.no_comma h.some]

theorem name?_ofWord (name : String) : (Lexeme.ofWord name).name? = some name := by
  simp [Lexeme.name?, Lexeme.ofWord]

theorem readNames_inParentheses {names : List String} (hsome : names ≠ [])
    (rest : List Lexeme) :
    readNames (Lexeme.inParentheses (withoutGaps (listed (names.map ([.ofWord ·])))) ++ rest) =
      some (names, rest) := by
  have hitems : (names.map fun name ↦ [Lexeme.ofWord name]).map withoutGaps =
      names.map fun name ↦ [Lexeme.ofWord name] := by
    rw [List.map_map]
    rfl
  have hseparable : Separable (names.map fun name ↦ [Lexeme.ofWord name]) :=
    ⟨by simpa using hsome, by simp [Lexeme.ofWord, Lexeme.comma],
      by simp [Lexeme.ofWord, Lexeme.closing]⟩
  have hnames : (names.map fun name ↦ [Lexeme.ofWord name]).mapM itemName? =
      some (names.map id) := mapM_map_of_some (f := itemName?) name?_ofWord names
  rw [withoutGaps_listed, hitems, readNames, readItems_inParentheses hseparable]
  simp [hnames]

theorem readMarks_inParentheses (d : Dialect) {count : Nat} (hsome : count ≠ 0)
    (rest : List Lexeme) :
    readMarks d (Lexeme.inParentheses
      (withoutGaps (listed (List.replicate count (markLexemes d)))) ++ rest) =
        some (count, rest) := by
  have hitems : (List.replicate count (markLexemes d)).map withoutGaps =
      List.replicate count (markLexemes d) := by
    rw [List.map_replicate]
    cases d <;> rfl
  have hseparable : Separable (List.replicate count (markLexemes d)) := by
    refine ⟨by simpa using hsome, ?_, ?_⟩ <;>
      · intro item hitem
        rw [List.eq_of_mem_replicate hitem]
        cases d <;> decide
  have hmark : isMark d (markLexemes d) = true := by
    cases d <;> rfl
  rw [withoutGaps_listed, hitems, readMarks, readItems_inParentheses hseparable]
  simp [hmark]

theorem afterWords_map {words : List String}
    (hwords : ∀ word ∈ words, (Lexeme.ofWord word).isWord word = true) (rest : List Lexeme) :
    afterWords words (words.map .ofWord ++ rest) = some rest := by
  induction words with
  | nil => rfl
  | cons word words ih =>
    obtain ⟨hword, hothers⟩ := List.forall_mem_cons.mp hwords
    rw [List.map_cons, List.cons_append, afterWords, hword, if_pos rfl, ih hothers]

theorem newValueOf?_newValueLexemes (d : Dialect) (column : String) :
    newValueOf? d (newValueLexemes d column) = some column := by
  have hlower : "excluded.".toList.length = 9 := rfl
  have hupper : "EXCLUDED.".toList.length = 9 := rfl
  cases d with
  | sqlite =>
    simp only [newValueOf?, newValueLexemes, Lexeme.ofWord, String.toList_append,
      List.take_left' hlower, List.drop_left' hlower, String.ofList_toList]
    rfl
  | postgresql =>
    simp only [newValueOf?, newValueLexemes, Lexeme.ofWord, String.toList_append,
      List.take_left' hupper, List.drop_left' hupper, String.ofList_toList]
    rfl
  | mysql =>
    have hvalues : (Lexeme.ofWord "VALUES").isWord "VALUES" = true := rfl
    simp [newValueOf?, newValueLexemes, Lexeme.inParentheses, hvalues, name?_ofWord]

theorem assignment?_assignmentLexemes (d : Dialect) (column : String) :
    assignment? d (withoutGaps (assignmentLexemes d column)) = some (column, column) := by
  have hvalue : withoutGaps (newValueLexemes d column) = newValueLexemes d column := by
    cases d <;> rfl
  have hequals (rest : List Lexeme) : withoutGaps (⟨.sign, ['=']⟩ :: .gap :: rest) =
      ⟨.sign, ['=']⟩ :: withoutGaps rest := rfl
  rw [assignmentLexemes, withoutGaps_spaced, hequals, hvalue]
  have hsign : (Lexeme.mk .sign ['=']).isSign '=' = true := rfl
  simp [assignment?, hsign, name?_ofWord, newValueOf?_newValueLexemes]

theorem comma_not_mem_assignmentLexemes (d : Dialect) (column : String) :
    Lexeme.comma ∉ withoutGaps (assignmentLexemes d column) := by
  have hcomma : Lexeme.comma ∉ assignmentLexemes d column := by
    cases d <;> simp [assignmentLexemes, spaced, newValueLexemes, Lexeme.inParentheses,
      Lexeme.ofWord, Lexeme.comma, Lexeme.gap, Lexeme.opening, Lexeme.closing]
  exact fun h ↦ hcomma (List.mem_filter.mp h).1

theorem readAssignments_listed (d : Dialect) {replaced : List String} (hsome : replaced ≠ []) :
    readAssignments d (withoutGaps (listed (replaced.map (assignmentLexemes d)))) =
      some (.overwrite (replaced.map fun column ↦ (column, column))) := by
  have hitems : (replaced.map (withoutGaps ∘ assignmentLexemes d)) ≠ [] := by
    simpa using hsome
  have hcommas : ∀ item ∈ replaced.map (withoutGaps ∘ assignmentLexemes d),
      Lexeme.comma ∉ item := by
    simp [comma_not_mem_assignmentLexemes]
  have hread : (replaced.map (withoutGaps ∘ assignmentLexemes d)).mapM (assignment? d) =
      some (replaced.map fun column ↦ (column, column)) :=
    mapM_map_of_some (assignment?_assignmentLexemes d) replaced
  rw [withoutGaps_listed, List.map_map, readAssignments,
    List.splitOn_intercalate Lexeme.comma hcommas hitems, hread]
  rfl

/-- The key that is named in the dialect; in MySQL none is. -/
def namedKey (d : Dialect) (keys : List String) : Option (List String) :=
  if d = .mysql then none else some keys

/-- What is to be done if the row exists: the replaced columns get their new values. -/
def conflictRule (replaced : List String) : ConflictRule :=
  if replaced = [] then .keep else .overwrite (replaced.map fun column ↦ (column, column))

theorem assigned_conflictRule (replaced : List String) :
    (conflictRule replaced).assigned = replaced := by
  unfold conflictRule
  split
  · next hnone => rw [hnone, ConflictRule.assigned]
  · simp [ConflictRule.assigned, Function.comp_def]

theorem readAction_actionLexemes (d : Dialect) (replaced : List String) :
    readAction d (withoutGaps (actionLexemes d replaced)) = some (conflictRule replaced) := by
  have hupdate : ∀ word ∈ ["UPDATE", "SET"], (Lexeme.ofWord word).isWord word = true := by decide
  rw [readAction, actionLexemes, conflictRule]
  by_cases hreplaced : replaced = []
  · rw [if_pos hreplaced, if_pos hreplaced]
    rfl
  · have hnothing (rest : List Lexeme) :
        afterWords ["NOTHING"] (["UPDATE", "SET"].map .ofWord ++ rest) ≠ some [] := nofun
    rw [if_neg hreplaced, if_neg hreplaced, withoutGaps_spaced, if_neg (hnothing _),
      afterWords_map hupdate]
    exact readAssignments_listed d hreplaced

theorem readConflict_conflictLexemes (d : Dialect) {replaced keys : List String}
    (hkeys : keys ≠ []) (hreplaced : d = .mysql → replaced ≠ []) :
    readConflict d (withoutGaps (conflictLexemes d replaced keys)) =
      some (namedKey d keys, conflictRule replaced) := by
  have htarget (d : Dialect) : (do
      let (target, rest) ← readNames (← afterWords ["ON", "CONFLICT"]
        (withoutGaps (targetLexemes keys (actionLexemes d replaced))))
      return (some target, ← readAction d (← afterWords ["DO"] rest))) =
        some (some keys, conflictRule replaced) := by
    have hconflict : ∀ word ∈ ["ON", "CONFLICT"], (Lexeme.ofWord word).isWord word = true := by
      decide
    have hdo : ∀ word ∈ ["DO"], (Lexeme.ofWord word).isWord word = true := by decide
    rw [targetLexemes, withoutGaps_spaced, withoutGaps_inParentheses, withoutGaps_gap,
      withoutGaps_spaced, afterWords_map hconflict]
    simp only [Option.bind_eq_bind, Option.bind_some, readNames_inParentheses hkeys,
      afterWords_map hdo, readAction_actionLexemes]
    rfl
  cases d with
  | mysql =>
    have hduplicate : ∀ word ∈ ["ON", "DUPLICATE", "KEY", "UPDATE"],
        (Lexeme.ofWord word).isWord word = true := by decide
    have hsome : replaced ≠ [] := hreplaced rfl
    rw [conflictLexemes, withoutGaps_spaced, readConflict, afterWords_map hduplicate]
    simp only [Option.bind_eq_bind, Option.bind_some, readAssignments_listed .mysql hsome]
    simp [namedKey, conflictRule, hsome]
  | sqlite => exact htarget .sqlite
  | postgresql => exact htarget .postgresql

/-- MySQL always replaces something. -/
theorem replacedColumns_mysql_ne_nil {columns keys : List String} (hkeys : keys ≠ []) :
    Dialect.mysql.replacedColumns columns keys ≠ [] := by
  rw [replacedColumns_eq]
  split
  · simpa using hkeys
  · next hother => exact fun hnone ↦ hother ⟨hnone, rfl⟩

/-- What the text of an insertion that the library writes says. -/
def upsertOf (d : Dialect) (table : String) (columns keys : List String) : Insertion where
  table := table
  columns := columns
  marks := columns.length
  target := namedKey d keys
  rule := conflictRule (d.replacedColumns columns keys)

theorem withoutGaps_insertionLexemes (d : Dialect) (table : String) (columns : List String)
    (rest : List Lexeme) : withoutGaps (insertionLexemes d table columns rest) =
      ["INSERT", "INTO"].map .ofWord ++ .ofWord table ::
        (Lexeme.inParentheses (withoutGaps (listed (columns.map ([.ofWord ·])))) ++
          (["VALUES"].map .ofWord ++ (Lexeme.inParentheses
            (withoutGaps (listed (List.replicate columns.length (markLexemes d)))) ++
              withoutGaps rest))) := by
  rw [insertionLexemes, withoutGaps_spaced, withoutGaps_inParentheses, withoutGaps_gap,
    withoutGaps_spaced, withoutGaps_inParentheses]
  rfl

theorem isWord_insert : ∀ word ∈ ["INSERT", "INTO"], (Lexeme.ofWord word).isWord word = true := by
  decide

theorem isWord_values : ∀ word ∈ ["VALUES"], (Lexeme.ofWord word).isWord word = true := by
  decide

theorem readInsertion_upsertLexemes (d : Dialect) (table : String) {columns keys : List String}
    (hcolumns : columns ≠ []) (hkeys : keys ≠ []) :
    readInsertion d (withoutGaps (upsertLexemes d table columns keys)) =
      some (upsertOf d table columns keys) := by
  have hcount : columns.length ≠ 0 := by simpa using hcolumns
  have hreplaced : d = .mysql → d.replacedColumns columns keys ≠ [] := fun hd ↦
    hd ▸ replacedColumns_mysql_ne_nil hkeys
  have hconflict := readConflict_conflictLexemes d hkeys hreplaced
  rw [upsertLexemes, withoutGaps_insertionLexemes, withoutGaps_gap, readInsertion,
    afterWords_map isWord_insert]
  simp only [Option.bind_eq_bind, Option.bind_some, readNames_inParentheses hcolumns,
    afterWords_map isWord_values, readMarks_inParentheses d hcount, hconflict, name?_ofWord]
  rfl

/-- The text that the library writes is read as the insertion that it was written for. -/
theorem readsAs_upsert (d : Dialect) (table : String) {columns keys : List String}
    (hcolumns : columns ≠ []) (hkeys : keys ≠ []) :
    ReadsAs d (d.render (.upsert table columns keys)) (upsertOf d table columns keys) :=
  ⟨_, spelled_upsertLexemes d table columns keys,
    readInsertion_upsertLexemes d table hcolumns hkeys⟩

/-! ### Texts with words as names -/

/-- The lexemes are those of what they spell. -/
def Stable (d : Dialect) (lexemes : List Lexeme) : Prop :=
  scan d (spelled lexemes) = some lexemes

namespace Stable

variable {d : Dialect} {c : Char} {lexeme : Lexeme} {lexemes more : List Lexeme}

theorem nil : Stable d [] :=
  rfl

theorem delimiter (h : delimiter? c = some lexeme) (hmore : Stable d more) :
    Stable d (lexeme :: more) := by
  have hchars : spelled (lexeme :: more) = c :: spelled more := by
    simp [spelled, chars_of_delimiter? h]
  rw [Stable, hchars, scan_delimiter h, hmore]
  rfl

theorem joined (h : delimiter? c = some lexeme) (hlexemes : Stable d lexemes)
    (hmore : Stable d more) : Stable d (lexemes ++ lexeme :: more) := by
  have hchars : spelled (lexemes ++ lexeme :: more) = spelled lexemes ++ c :: spelled more := by
    simp [spelled, chars_of_delimiter? h]
  rw [Stable, hchars, scan_append h hlexemes, scan_delimiter h, hmore]
  rfl

theorem gap (hmore : Stable d more) : Stable d (.gap :: more) :=
  delimiter (c := ' ') rfl hmore

theorem inParentheses (hlexemes : Stable d lexemes) (hmore : Stable d more) :
    Stable d (Lexeme.inParentheses lexemes ++ more) := by
  have happend : Lexeme.inParentheses lexemes ++ more =
      .opening :: (lexemes ++ .closing :: more) := by
    simp [Lexeme.inParentheses]
  rw [happend]
  exact delimiter (c := '(') rfl (joined (c := ')') rfl hlexemes hmore)

theorem word {word : String} {first : Char} {rest : List Char}
    (hchars : word.toList = first :: rest) (hfirst : startsName first = true)
    (hrest : ∀ x ∈ rest, continuesWord x = true) : Stable d [.ofWord word] := by
  have hspelled : spelled [.ofWord word] = first :: rest := by
    simp [spelled, Lexeme.ofWord, hchars]
  rw [Stable, hspelled, scan_word (startsWord_of_startsName hfirst) hrest, Lexeme.ofWord, hchars]

theorem ofWord {word : String} (hword : isWord word = true) : Stable d [.ofWord word] := by
  obtain ⟨first, rest, hchars, hfirst, hrest⟩ := exists_chars_of_isWord hword
  exact Stable.word hchars hfirst fun x hx ↦ by simp [continuesWord, hrest x hx]

/-- A name that is qualified by a word is a word as well. -/
theorem qualified {qualifier name : String} (hqualifier : isWord qualifier = true)
    (hname : isWord name = true) : Stable d [.ofWord (qualifier ++ "." ++ name)] := by
  obtain ⟨first, rest, hchars, hfirst, hrest⟩ := exists_chars_of_isWord hqualifier
  obtain ⟨start, more, hmore, hstart, hcontinue⟩ := exists_chars_of_isWord hname
  have hjoined : (qualifier ++ "." ++ name).toList = first :: (rest ++ '.' :: start :: more) := by
    simp [String.toList_append, hchars, hmore]
  refine Stable.word hjoined hfirst fun x hx ↦ ?_
  simp only [List.mem_append, List.mem_cons] at hx
  rcases hx with hx | rfl | rfl | hx
  · simp [continuesWord, hrest x hx]
  · rfl
  · simp [continuesWord, continuesName, hstart]
  · simp [continuesWord, hcontinue x hx]

theorem spaced {words : List String} (hwords : ∀ word ∈ words, isWord word = true)
    (hmore : Stable d more) : Stable d (Sql.spaced words more) := by
  induction words with
  | nil => exact hmore
  | cons word words ih =>
    obtain ⟨hword, hothers⟩ := List.forall_mem_cons.mp hwords
    exact joined (c := ' ') rfl (ofWord hword) (ih hothers)

theorem listed {items : List (List Lexeme)} (hitems : ∀ item ∈ items, Stable d item) :
    Stable d (Sql.listed items) := by
  induction items with
  | nil => exact nil
  | cons item items ih =>
    obtain ⟨hitem, hothers⟩ := List.forall_mem_cons.mp hitems
    cases items with
    | nil => simpa [Sql.listed] using hitem
    | cons next items =>
      have hcons : Sql.listed (item :: next :: items) =
          item ++ .comma :: .gap :: Sql.listed (next :: items) := by
        simp [Sql.listed, List.intercalate_cons_cons]
      rw [hcons]
      exact joined (c := ',') rfl hitem (gap (ih hothers))

theorem names {names : List String} (hnames : ∀ name ∈ names, isWord name = true) :
    Stable d (Sql.listed (names.map ([.ofWord ·]))) := by
  refine listed fun item hitem ↦ ?_
  obtain ⟨name, hname, rfl⟩ := List.mem_map.mp hitem
  exact ofWord (hnames name hname)

theorem marks (count : Nat) : Stable d (Sql.listed (List.replicate count (markLexemes d))) := by
  refine listed fun item hitem ↦ ?_
  rw [List.eq_of_mem_replicate hitem]
  cases d <;> rfl

theorem newValue {column : String} (hcolumn : isWord column = true) :
    Stable d (newValueLexemes d column) := by
  cases d with
  | sqlite =>
    have hqualified : Stable .sqlite [.ofWord ("excluded" ++ "." ++ column)] :=
      qualified (by decide) hcolumn
    exact hqualified
  | postgresql =>
    have hqualified : Stable .postgresql [.ofWord ("EXCLUDED" ++ "." ++ column)] :=
      qualified (by decide) hcolumn
    exact hqualified
  | mysql =>
    have hvalues : Stable .mysql [.ofWord "VALUES"] := ofWord (by decide)
    exact joined (c := '(') rfl hvalues (joined (c := ')') rfl (ofWord hcolumn) nil)

theorem assignments {replaced : List String} (hwords : ∀ column ∈ replaced, isWord column = true) :
    Stable d (Sql.listed (replaced.map (assignmentLexemes d))) := by
  have hequals : Stable d [⟨.sign, ['=']⟩] := by
    cases d <;> rfl
  refine listed fun item hitem ↦ ?_
  obtain ⟨column, hcolumn, rfl⟩ := List.mem_map.mp hitem
  have hword := hwords column hcolumn
  refine spaced (by simpa using hword) ?_
  exact joined (c := ' ') rfl hequals (newValue hword)

theorem action {replaced : List String} (hwords : ∀ column ∈ replaced, isWord column = true) :
    Stable d (actionLexemes d replaced) := by
  unfold actionLexemes
  split
  · exact ofWord (by decide)
  · exact spaced (by decide) (assignments hwords)

theorem target {keys : List String} (hkeys : ∀ key ∈ keys, isWord key = true)
    (hmore : Stable d more) : Stable d (targetLexemes keys more) :=
  spaced (by decide) (inParentheses (names hkeys) (gap (spaced (by decide) hmore)))

theorem conflict {replaced keys : List String}
    (hreplaced : ∀ column ∈ replaced, isWord column = true)
    (hkeys : ∀ key ∈ keys, isWord key = true) : Stable d (conflictLexemes d replaced keys) := by
  cases d with
  | mysql => exact spaced (by decide) (assignments hreplaced)
  | sqlite => exact target hkeys (action hreplaced)
  | postgresql => exact target hkeys (action hreplaced)

end Stable

theorem Stable.insertion {d : Dialect} {table : String} {columns : List String}
    {rest : List Lexeme} (hwords : ∀ name ∈ table :: columns, isWord name = true)
    (hrest : Stable d rest) : Stable d (insertionLexemes d table columns rest) := by
  obtain ⟨hname, hcolumns⟩ := List.forall_mem_cons.mp hwords
  have htable : ∀ word ∈ ["INSERT", "INTO", table], isWord word = true := by
    simp [hname, show isWord "INSERT" = true by decide, show isWord "INTO" = true by decide]
  exact .spaced htable (.inParentheses (.names hcolumns) (.gap (.spaced (by decide)
    (.inParentheses (.marks _) hrest))))

theorem Stable.upsert {d : Dialect} {table : String} {columns keys : List String}
    (hwords : ∀ name ∈ table :: (columns ++ keys), isWord name = true) :
    Stable d (upsertLexemes d table columns keys) := by
  have hcolumn : ∀ name ∈ columns, isWord name = true := fun name hname ↦
    hwords name (List.mem_cons_of_mem _ (List.mem_append_left _ hname))
  have hkey : ∀ name ∈ keys, isWord name = true := fun name hname ↦
    hwords name (List.mem_cons_of_mem _ (List.mem_append_right _ hname))
  have hreplaced : ∀ name ∈ d.replacedColumns columns keys, isWord name = true := fun name hname ↦
    (mem_of_mem_replacedColumns hname).elim (hcolumn name) (hkey name)
  have htable : ∀ name ∈ table :: columns, isWord name = true :=
    List.forall_mem_cons.mpr ⟨hwords table List.mem_cons_self, hcolumn⟩
  exact .insertion htable (.gap (.conflict hreplaced hkey))

/-- Where the names are words, the text that the library writes is read as the insertion that it was
written for, and as nothing else. -/
theorem scanInsertion_upsert (d : Dialect) {table : String} {columns keys : List String}
    (hcolumns : columns ≠ []) (hkeys : keys ≠ [])
    (hwords : ∀ name ∈ table :: (columns ++ keys), isWord name = true) :
    scanInsertion d (d.render (.upsert table columns keys)) =
      some (upsertOf d table columns keys) := by
  rw [scanInsertion, ← spelled_upsertLexemes, Stable.upsert hwords]
  exact readInsertion_upsertLexemes d table hcolumns hkeys

end StagedColumns.Sql
