import StagedColumns.Proofs.Datum.Distinct
import StagedColumns.Proofs.Sql.Parser

/-!
# Tests of columns

The condition that several values put on a column is read as the test whether the column has one of
them: the values are those that were given, without repetitions, whatever characters they have. So
is an equality that a join stands on.
-/

set_option autoImplicit false

namespace StagedColumns

/-- The condition that a record with one entry gives is the test of its column. -/
theorem Dialect.conditionOf_entry {d : Dialect} {column text : String} {value : Datum}
    (h : d.testColumn column value = .ok text) (connective : Connective) :
    d.conditionOf (.record [(column, value)]) connective = .ok (.text text) := by
  simp only [conditionOf, conditions, testColumns, h]
  rfl

namespace Sql

/-- The value has a literal, which is read as the value. -/
def Spelled (d : Dialect) (v : Datum) : Prop :=
  ∃ text, d.literal v = .ok text ∧ lex d text.toList = some [.literal v]

theorem spelled_null (d : Dialect) : Spelled d .null :=
  ⟨_, rfl, by cases d <;> rfl⟩

/-- The literal of the value is read as the value, and the value asks to be equal to it. -/
structure Scalar (d : Dialect) (v : Datum) : Prop where
  spelled : Spelled d v
  tested (column : String) : ColumnTest.ofDatum column v = .ok (.equals v)

theorem scalar_int (d : Dialect) (n : Int) : Scalar d (.int n) :=
  ⟨⟨_, rfl, lex_int d n⟩, fun _ ↦ rfl⟩

theorem scalar_text (d : Dialect) (s : String) : Scalar d (.text s) := by
  refine ⟨⟨_, rfl, ?_⟩, fun _ ↦ rfl⟩
  rw [String.toList_ofList, lex_literalChars, String.ofList_toList]

/-- The test whether a column has one of the values. -/
def Condition.oneOf (e : Expression) : List Datum → Condition
  | [v] => .equal (.column e) (.value v)
  | values => .among (.column e) values

theorem Condition.holds_oneOf (columns : Expression → Datum) (e : Expression)
    (values : List Datum) :
    (Condition.oneOf e values).Holds columns ↔
      columns e ≠ .null ∧ ∃ v ∈ values, (columns e).same v = true := by
  unfold Condition.oneOf
  split
  · simp [Condition.holds_equal]
  · exact Condition.holds_among e _

variable {d : Dialect} {column : String} {e : Expression}

theorem lex_equals (hcolumn : lex d column.toList = some [.column e]) {text : String}
    {tokens : List Token} (htext : lex d text.toList = some tokens) :
    lex d (column ++ " = " ++ text).toList = some (.column e :: .equals :: tokens) := by
  have hgap : ' ' ∈ delimiters := by decide
  have hchars : (column ++ " = " ++ text).toList =
      column.toList ++ ' ' :: '=' :: ' ' :: text.toList := by
    simp [String.toList_append]
  rw [hchars, lex_append d hgap hcolumn, lex_gap, lex_mark d _ (rfl : mark? '=' = some .equals),
    lex_gap, htext]
  rfl

theorem parse_equals_value (hcolumn : lex d column.toList = some [.column e]) {text : String}
    {v : Datum} (htext : lex d text.toList = some [.literal v]) :
    parse d (column ++ " = " ++ text) = some (.equal (.column e) (.value v)) := by
  rw [parse, lex_equals hcolumn htext]
  rfl

theorem parse_equals_column (hcolumn : lex d column.toList = some [.column e]) {text : String}
    {other : Expression} (htext : lex d text.toList = some [.column other]) :
    parse d (column ++ " = " ++ text) = some (.equal (.column e) (.column other)) := by
  rw [parse, lex_equals hcolumn htext]
  rfl

/-- The tokens of the values after the first one. -/
def itemTokens (values : List Datum) : List Token :=
  values.flatMap fun v ↦ [.comma, .literal v]

theorem exists_literals {values : List Datum} (hvalues : ∀ v ∈ values, Spelled d v) :
    ∃ texts, d.literals values = .ok texts ∧
      texts.map (fun text ↦ lex d text.toList) = values.map fun v ↦ some [.literal v] := by
  induction values with
  | nil => exact ⟨[], rfl, rfl⟩
  | cons v rest ih =>
    obtain ⟨text, hliteral, hlex⟩ := hvalues v List.mem_cons_self
    obtain ⟨texts, hliterals, hrest⟩ := ih fun v hv ↦ hvalues v (List.mem_cons_of_mem _ hv)
    refine ⟨text :: texts, ?_, ?_⟩
    · rw [Dialect.literals, hliteral, hliterals]
      rfl
    · rw [List.map_cons, List.map_cons, hlex, hrest]

theorem lex_items {first : String} {texts : List String} {v : Datum} {values : List Datum}
    (hitems : (first :: texts).map (fun text ↦ lex d text.toList) =
      (v :: values).map fun v ↦ some [.literal v]) (rest : List Char) :
    lex d ((", ".intercalate (first :: texts)).toList ++ ')' :: rest) =
      (lex d rest).map (.literal v :: itemTokens values ++ .closing :: ·) := by
  rw [List.map_cons, List.map_cons, List.cons_eq_cons] at hitems
  obtain ⟨hfirst, hitems⟩ := hitems
  induction texts generalizing first v values with
  | nil =>
    have hclosing : ')' ∈ delimiters := by decide
    have hvalues : values = [] := by simpa using hitems
    subst hvalues
    rw [String.intercalate_singleton, lex_append d hclosing hfirst,
      lex_mark d _ (rfl : mark? ')' = some .closing)]
    cases lex d rest <;> rfl
  | cons second texts ih =>
    cases values with
    | nil => cases hitems
    | cons w values =>
      have hcomma : ',' ∈ delimiters := by decide
      rw [List.map_cons, List.map_cons, List.cons_eq_cons] at hitems
      have hchars : (", ".intercalate (first :: second :: texts)).toList ++ ')' :: rest =
          first.toList ++ ',' :: ' ' ::
            ((", ".intercalate (second :: texts)).toList ++ ')' :: rest) := by
        simp [String.intercalate_cons_cons, String.toList_append]
      rw [hchars, lex_append d hcomma hfirst, lex_mark d _ (rfl : mark? ',' = some .comma),
        lex_gap, ih hitems.1 hitems.2]
      cases lex d rest <;> rfl

theorem foldlM_itemTokens (level : Level) (o : Operand) (read values : List Datum)
    (rest : List Token) :
    (itemTokens values ++ rest).foldlM Parsing.step ⟨level, [], .separator o read⟩ =
      rest.foldlM Parsing.step ⟨level, [], .separator o (read ++ values)⟩ := by
  induction values generalizing read with
  | nil => rw [List.append_nil]; rfl
  | cons v values ih =>
    have hread := ih (read ++ [v])
    rw [List.append_assoc, List.singleton_append] at hread
    exact hread

theorem exists_render_oneOf (hcolumn : lex d column.toList = some [.column e]) {v : Datum}
    {values : List Datum} (hvalues : ∀ w ∈ v :: values, Spelled d w) :
    ∃ text, (ColumnTest.oneOf (v :: values)).render d column = .ok text ∧
      parse d text = some (.among (.column e) (v :: values)) := by
  obtain ⟨texts, hliterals, hitems⟩ := exists_literals hvalues
  cases texts with
  | nil => cases hitems
  | cons first texts =>
    refine ⟨column ++ " IN (" ++ ", ".intercalate (first :: texts) ++ ")", ?_, ?_⟩
    · rw [ColumnTest.render, hliterals]
      rfl
    · have hgap : ' ' ∈ delimiters := by decide
      have hopening : '(' ∈ delimiters := by decide
      have hin : lex d ['I', 'N'] = some [.among] := by cases d <;> rfl
      have hchars : (column ++ " IN (" ++ ", ".intercalate (first :: texts) ++ ")").toList =
          column.toList ++ ' ' :: (['I', 'N'] ++ ' ' :: '(' ::
            ((", ".intercalate (first :: texts)).toList ++ ')' :: [])) := by
        simp [String.toList_append]
      have hend : lex d [] = some [] := rfl
      have htokens : lex d (column ++ " IN (" ++ ", ".intercalate (first :: texts) ++ ")").toList =
          some (.column e :: .among :: .opening :: .literal v ::
            (itemTokens values ++ [.closing])) := by
        rw [hchars, lex_append d hgap hcolumn, lex_gap, lex_append d hgap hin, lex_gap,
          lex_mark d _ (rfl : mark? '(' = some .opening), lex_items hitems, hend]
        rfl
      have hread := foldlM_itemTokens .empty (.column e) [v] values [.closing]
      rw [parse, htokens]
      simp only [Option.bind_eq_bind, Option.bind_some, parseTokens, List.foldlM_cons,
        Parsing.start, Parsing.step, Parsing.expecting, List.nil_append, hread]
      rfl

/-- The condition that several values put on a column is read as the test whether the column has one
of them. -/
theorem exists_testColumn (hcolumn : lex d column.toList = some [.column e])
    {values kept : List Datum} (hvalues : ∀ v ∈ kept, Scalar d v) (hsome : values ≠ [])
    (hkept : Datum.distinct values = .ok kept) :
    ∃ text, d.testColumn column (.list values) = .ok text ∧
      parse d text = some (Condition.oneOf e kept) := by
  cases values with
  | nil => exact absurd rfl hsome
  | cons v rest =>
    obtain ⟨more, rfl⟩ := Datum.exists_eq_cons_of_distinct hkept
    have hv := hvalues v List.mem_cons_self
    cases more with
    | nil =>
      obtain ⟨text, hliteral, hlex⟩ := hv.spelled
      refine ⟨column ++ " = " ++ text, ?_, parse_equals_value hcolumn hlex⟩
      have htest : ColumnTest.ofDatum column (.list (v :: rest)) = .ok (.equals v) := by
        simp only [ColumnTest.ofDatum, ColumnTest.ofItems, hkept, hv.tested]
      rw [Dialect.testColumn, htest]
      change ColumnTest.render d column (.equals v) = _
      rw [ColumnTest.render, hliteral]
      rfl
    | cons w more =>
      obtain ⟨text, hrender, hparse⟩ :=
        exists_render_oneOf hcolumn fun v hv ↦ (hvalues v hv).spelled
      refine ⟨text, ?_, hparse⟩
      have htest : ColumnTest.ofDatum column (.list (v :: rest)) =
          .ok (.oneOf (v :: w :: more)) := by
        simp only [ColumnTest.ofDatum, ColumnTest.ofItems, hkept]
      rw [Dialect.testColumn, htest]
      exact hrender

/-- Any text can be asked whether it has one of several values, whether it is read as a column or
not. -/
theorem exists_testColumn_eq_ok (column : String) {values kept : List Datum}
    (hvalues : ∀ v ∈ kept, Scalar d v) (hsome : values ≠ [])
    (hkept : Datum.distinct values = .ok kept) :
    ∃ text, d.testColumn column (.list values) = .ok text := by
  obtain ⟨v, rest, rfl⟩ := List.exists_cons_of_ne_nil hsome
  obtain ⟨more, rfl⟩ := Datum.exists_eq_cons_of_distinct hkept
  have hv := hvalues v List.mem_cons_self
  cases more with
  | nil =>
    obtain ⟨text, hliteral, -⟩ := hv.spelled
    refine ⟨column ++ " = " ++ text, ?_⟩
    rw [Dialect.testColumn]
    simp only [ColumnTest.ofDatum, ColumnTest.ofItems, hkept, hv.tested]
    show ColumnTest.render d column (.equals v) = _
    rw [ColumnTest.render, hliteral]
    rfl
  | cons w more =>
    obtain ⟨texts, hliterals, -⟩ := exists_literals fun v hv ↦ (hvalues v hv).spelled
    refine ⟨column ++ " IN (" ++ ", ".intercalate texts ++ ")", ?_⟩
    rw [Dialect.testColumn]
    simp only [ColumnTest.ofDatum, ColumnTest.ofItems, hkept]
    show ColumnTest.render d column (.oneOf (v :: w :: more)) = _
    rw [ColumnTest.render, hliterals]
    rfl

end Sql

end StagedColumns
