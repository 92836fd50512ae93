import StagedColumns.Proofs.Query.Database
import StagedColumns.Proofs.Sql.Parser
import StagedColumns.Query.Fragment

/-!
# What a query sees

A query over one row of the main table sees that row together with one row of each table that is
added: all combinations that meet the conditions that the joins stand on, as a database reads them.
Each combination gives the outputs of a reading once, and a search finds the row if its condition is
met by a combination.
-/

set_option autoImplicit false

namespace StagedColumns

/-- A row of the main table with rows of added tables, by their aliases. -/
structure Scope where
  main : Row
  joined : List (String × Row)

namespace Scope

/-- The value of an expression. -/
def value (s : Scope) : Expression → Datum
  | .null | .text _ => .null
  | .column name => cell s.main name
  | .qualified shortName name =>
    ((s.joined.lookup shortName).map fun row ↦ cell row name).getD .null

/-- The scope with the row of one more table. -/
def join (s : Scope) (shortName : String) (row : Row) : Scope :=
  { s with joined := s.joined ++ [(shortName, row)] }

/-- The scopes with each row of one more table that meets the join's condition. -/
def joinAll (d : Dialect) (shortName : String) (rows : List Row) (join? : Option Join)
    (s : Scope) : Option (List Scope) :=
  let all := rows.map (s.join shortName)
  match join? with
  | none => some all
  | some join =>
    if join.kind = "JOIN" then do
      let c ← Sql.parse d join.tie.render
      return all.filter fun next ↦ c.Holds next.value
    else none

end Scope

/-- The scopes that there are with one more table. -/
def Scope.extend (d : Dialect) (db : Database) (joins : OrderedMap Join) (scopes : List Scope)
    (entry : String × String) : Option (List Scope) := do
  return (← scopes.mapM
    (Scope.joinAll d entry.1 (db.rows entry.2) (joins.get? entry.1))).flatten

/-- The scopes that a query over a row sees. Joins of another kind than `JOIN`, and conditions that
cannot be read, give none. -/
def Tables.scopes? (t : Tables) (d : Dialect) (db : Database) (main : Row) : Option (List Scope) :=
  t.tables.entries.foldlM (Scope.extend d db t.joins) [⟨main, []⟩]

namespace Sql

/-- The operand that a text says. -/
def parseOperand (d : Dialect) (text : String) : Option Operand :=
  match lex d text.toList with
  | some [.column e] => some (.column e)
  | some [.literal v] => some (.value v)
  | _ => none

end Sql

/-- The values of outputs in a scope, under their names. -/
def Scope.outputs? (d : Dialect) (outputs : List (String × Expression)) (s : Scope) :
    Option (List (String × Datum)) :=
  outputs.mapM fun entry ↦ do
    return (entry.1, (← Sql.parseOperand d entry.2.render).eval s.value)

/-- The outputs that a reading gives for a row, once for each scope. -/
def Reading.rows? (r : Reading) (d : Dialect) (db : Database) (main : Row) :
    Option (List (List (String × Datum))) := do
  (← r.source.scopes? d db main).mapM (Scope.outputs? d r.outputs.entries)

/-- Whether a search finds a row. -/
def Search.finds? (s : Search) (d : Dialect) (db : Database) (main : Row) : Option Bool := do
  let c ← Sql.parse d s.condition
  return (← s.source.scopes? d db main).any fun scope ↦ c.Holds scope.value

/-! ### Scopes with one row of each table -/

theorem Scope.foldlM_extend_put {d : Dialect} {db : Database} {joins : OrderedMap Join}
    {shortName : String} (join : Join) {entries : List (String × String)}
    (hfresh : shortName ∉ entries.map Prod.fst) (scopes : List Scope) :
    entries.foldlM (extend d db (joins.put shortName join)) scopes =
      entries.foldlM (extend d db joins) scopes := by
  induction entries generalizing scopes with
  | nil => rfl
  | cons entry rest ih =>
    simp only [List.map_cons, List.mem_cons, not_or] at hfresh
    have hentry : extend d db (joins.put shortName join) scopes entry =
        extend d db joins scopes entry := by
      rw [extend, OrderedMap.get?_put, if_neg (Ne.symm hfresh.1), extend]
    rw [List.foldlM_cons, List.foldlM_cons, hentry]
    exact congrArg _ (funext fun next ↦ ih hfresh.2 next)

/-- One more table comes last. -/
theorem Tables.scopes?_add {t : Tables} {shortName : String} (hfresh : shortName ∉ t.tables.names)
    (table : String) (join : Join) (d : Dialect) (db : Database) (main : Row) :
    (t.add shortName table join).scopes? d db main =
      (t.scopes? d db main).bind fun scopes ↦
        (scopes.mapM (Scope.joinAll d shortName (db.rows table) (some join))).map List.flatten := by
  have hentries : (t.add shortName table join).tables.entries =
      t.tables.entries ++ [(shortName, table)] := putEntry_of_fresh hfresh
  unfold scopes?
  rw [hentries, List.foldlM_append]
  simp only [add, Scope.foldlM_extend_put join hfresh, List.foldlM_cons, List.foldlM_nil]
  cases t.tables.entries.foldlM (Scope.extend d db t.joins) [⟨main, []⟩] with
  | none => rfl
  | some scopes =>
    simp only [Option.bind_eq_bind, Option.bind_some, Scope.extend, OrderedMap.get?_put_self]
    cases scopes.mapM (Scope.joinAll d shortName (db.rows table) (some join)) <;> rfl

theorem Tables.scopes?_empty (d : Dialect) (db : Database) (main : Row) :
    Tables.empty.scopes? d db main = some [⟨main, []⟩] :=
  rfl

/-- Where the join is an equality that one row of the table meets, the row is joined. -/
theorem Scope.joinAll_equal {d : Dialect} {shortName : String} {rows : List Row}
    {left right : Expression} {s : Scope} {stored : Row}
    (hparse : Sql.parse d (Tie.equal left right).render =
      some (.equal (.column left) (.column right)))
    (hrows : rows.filter (fun row ↦ Sql.equality ((s.join shortName row).value left)
      ((s.join shortName row).value right) = some true) = [stored]) :
    s.joinAll d shortName rows (some (.inner left right)) = some [s.join shortName stored] := by
  have hfilter : (rows.map (s.join shortName)).filter (fun next ↦
      (Sql.Condition.equal (.column left) (.column right)).Holds next.value) =
      [s.join shortName stored] := by
    rw [List.filter_map]
    exact congrArg (List.map (s.join shortName)) hrows
  unfold joinAll
  simp only [Join.inner, if_true, hparse]
  exact congrArg some hfilter

/-- A query over one scope, with one more table joined by an equality that one row meets. -/
theorem Tables.scopes?_add_equal {t : Tables} {shortName table : String} {d : Dialect}
    {db : Database} {main : Row} {s : Scope} {left right : Expression} {stored : Row}
    (hfresh : shortName ∉ t.tables.names) (hscopes : t.scopes? d db main = some [s])
    (hparse : Sql.parse d (Tie.equal left right).render =
      some (.equal (.column left) (.column right)))
    (hrows : (db.rows table).filter (fun row ↦ Sql.equality ((s.join shortName row).value left)
      ((s.join shortName row).value right) = some true) = [stored]) :
    (t.add shortName table (.inner left right)).scopes? d db main =
      some [s.join shortName stored] := by
  rw [scopes?_add hfresh, hscopes, Option.bind_some]
  simp only [List.mapM_cons, List.mapM_nil, Scope.joinAll_equal hparse hrows]
  rfl

end StagedColumns
