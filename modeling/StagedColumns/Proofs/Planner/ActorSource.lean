import StagedColumns.Planner.Read
import StagedColumns.Proofs.Field.Gate
import StagedColumns.Proofs.Sql.ColumnTest

/-!
# The source of actor ids

The aliases that are made from a plain key are words, so the expression for the actor id and the
equalities that the joins stand on are read as what they are written from.
-/

set_option autoImplicit false

namespace StagedColumns.Planner

open Sql

variable {key : String} {field : UserField}

/-- The expression for the actor id of a key. -/
def actorExpression (key : String) (field : UserField) : Expression :=
  (actorSource key (field.columnNames key).actor field.tempTable).2

/-- The tables that are needed for the actor id of a key. -/
def actorTables (key : String) (field : UserField) : Tables :=
  (actorSource key (field.columnNames key).actor field.tempTable).1

theorem tempAlias_ne_actorAlias (key other : String) : tempAlias key ≠ actorAlias other := by
  intro h
  have hchars := congrArg String.toList h
  simp [tempAlias, actorAlias, String.toList_append] at hchars

theorem actorAlias_not_mem_actorTables (key : String) (field : UserField) :
    actorAlias key ∉ (actorTables key field).tables.names := by
  unfold actorTables actorSource
  cases field.tempTable with
  | none => exact List.not_mem_nil
  | some t =>
    intro h
    exact tempAlias_ne_actorAlias key key (List.mem_singleton.mp h).symm

/-- The actor table is joined by the actor id, wherever that is found. -/
theorem newReading_eq (key : String) (field : UserField) :
    newReading key (field.columnNames key) field.tempTable =
      ⟨(actorTables key field).add (actorAlias key) actorTable
          (.inner (.qualified (actorAlias key) "actor_id") (actorExpression key field)),
        OrderedMap.ofList [(key, .qualified (actorAlias key) "actor_user"),
          ((field.columnNames key).text, .qualified (actorAlias key) "actor_name"),
          ((field.columnNames key).actor, actorExpression key field)]⟩ :=
  rfl

theorem isWord_tempAlias (hkey : isPlainName key = true) : isWord (tempAlias key) = true :=
  isWord_append (by decide) (isWord_of_isPlainName hkey)

theorem isWord_actorAlias (hkey : isPlainName key = true) : isWord (actorAlias key) = true :=
  isWord_append (by decide) (isWord_of_isPlainName hkey)

/-- The expression for the actor id is read as a column. -/
theorem lex_actorExpression (d : Dialect) (hplain : field.HasPlainNames key) :
    lex d (actorExpression key field).render.toList =
      some [.column (actorExpression key field)] := by
  unfold actorExpression actorSource
  cases htable : field.tempTable with
  | none => exact lex_name d hplain.plain_actor
  | some t =>
    exact lex_qualified d (isWord_tempAlias hplain.plain_key)
      (isWord_of_isPlainName (hplain.plain_table htable).2.1)

theorem parse_tempTie (d : Dialect) (hplain : field.HasPlainNames key) {t : TempTable}
    (htable : field.tempTable = some t) :
    parse d (Tie.equal (.qualified (tempAlias key) t.keyColumn) (.column t.mainKey)).render =
      some (.equal (.column (.qualified (tempAlias key) t.keyColumn))
        (.column (.column t.mainKey))) := by
  obtain ⟨hkeyColumn, -, hmainKey⟩ := hplain.plain_table htable
  exact parse_equals_column (lex_qualified d (isWord_tempAlias hplain.plain_key)
    (isWord_of_isPlainName hkeyColumn)) (lex_name d hmainKey)

theorem parse_actorTie (d : Dialect) (hplain : field.HasPlainNames key) :
    parse d
        (Tie.equal (.qualified (actorAlias key) "actor_id") (actorExpression key field)).render =
      some (.equal (.column (.qualified (actorAlias key) "actor_id"))
        (.column (actorExpression key field))) :=
  parse_equals_column (lex_qualified d (isWord_actorAlias hplain.plain_key) (by decide))
    (lex_actorExpression d hplain)

end StagedColumns.Planner
