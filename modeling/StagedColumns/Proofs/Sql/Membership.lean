import StagedColumns.Proofs.OrderedMap
import StagedColumns.Proofs.Sql.ColumnTest

/-!
# Membership in a collection of values

A collection of values asks of a column to have one of them. The condition is written in three
ways: `IS NULL` or an equality where the values are but one, and a list where there are several.
For a column that has a value all three say the same, that it is one of the values, so repetitions
and the order of the values do not matter (`Condition.holds_member`).

A column without a value is another matter. Alone the absent value is asked for by `IS NULL`, but
inside a list it is a comparison with `NULL`, which is never true. So the absent value is found
exactly if nothing else is asked for, and the condition means membership unless the absent value is
among others (`columns_with_values_found`).
-/

set_option autoImplicit false

namespace StagedColumns

/-- A value that a column can be asked for: none at all, an integer or a text. -/
inductive ColumnValue
  | absent
  | int (n : Int)
  | text (s : String)
deriving DecidableEq

namespace ColumnValue

/-- The value among all values. -/
def datum : ColumnValue → Datum
  | absent => .null
  | int n => .int n
  | text s => .text s

theorem faithful_datum : Datum.Faithful datum where
  same_iff a b := by
    rw [Bool.eq_iff_iff]
    cases a <;> cases b <;> simp [datum, Datum.same, Datum.integer?]
  settled a := by cases a <;> rfl

theorem spelled_datum (d : Dialect) (v : ColumnValue) : Sql.Spelled d v.datum := by
  cases v with
  | absent => exact Sql.spelled_null d
  | int n => exact (Sql.scalar_int d n).spelled
  | text s => exact (Sql.scalar_text d s).spelled

end ColumnValue

namespace Datum

/-- The value gives the values to be asked for: it is a collection of them, or the only one. -/
inductive Offers : Datum → List ColumnValue → Prop
  | list (values : List ColumnValue) : Offers (.list (values.map ColumnValue.datum)) values
  | tuple (values : List ColumnValue) : Offers (.tuple (values.map ColumnValue.datum)) values
  | bag (values : List ColumnValue) : Offers (.bag (values.map ColumnValue.datum)) values
  | alone (value : ColumnValue) : Offers value.datum [value]

/-- The value is one of the values. For this the absent value is a value like any other. -/
def IsAmong (x : Datum) (values : List ColumnValue) : Prop :=
  ∃ v ∈ values, x.same v.datum = true

/-- Among the values that a column can be asked for this is membership. -/
theorem isAmong_datum_iff (w : ColumnValue) (values : List ColumnValue) :
    w.datum.IsAmong values ↔ w ∈ values := by
  simp [IsAmong, ColumnValue.faithful_datum.same_iff]

theorem isAmong_null_iff (values : List ColumnValue) :
    Datum.null.IsAmong values ↔ .absent ∈ values :=
  isAmong_datum_iff .absent values

/-- Whatever gives the values asks what the items of a collection ask. -/
theorem Offers.ofDatum_eq {given : Datum} {values : List ColumnValue} (h : given.Offers values)
    (column : String) : ColumnTest.ofDatum column given =
      ColumnTest.ofItems column (values.map ColumnValue.datum) := by
  cases h with
  | list => rfl
  | tuple => rfl
  | bag => rfl
  | alone value =>
    have hdistinct := distinct_map ColumnValue.faithful_datum [value]
    have honce : [value].eraseDups = [value] := by simp [List.eraseDups_cons]
    rw [honce, List.map_singleton] at hdistinct
    simp only [List.map_singleton, ColumnTest.ofItems, hdistinct]

end Datum

/-- The test for several different values: for the absent value alone, for another single value, or
for any of a list. -/
def ColumnTest.member : List ColumnValue → ColumnTest
  | [.absent] => .isNull
  | [v] => .equals v.datum
  | values => .oneOf (values.map ColumnValue.datum)

/-- A collection of values puts on a column the test for the values without repetitions. -/
theorem Datum.Offers.testColumn_eq {given : Datum} {values : List ColumnValue}
    (h : given.Offers values) (d : Dialect) (column : String) (hsome : values ≠ []) :
    d.testColumn column given = (ColumnTest.member values.eraseDups).render d column := by
  obtain ⟨v, rest, rfl⟩ := List.exists_cons_of_ne_nil hsome
  have hdistinct := Datum.distinct_map ColumnValue.faithful_datum (v :: rest)
  have htest := h.ofDatum_eq column
  rw [List.map_cons] at hdistinct htest
  obtain ⟨more, hkept⟩ : ∃ more, (v :: rest).eraseDups = v :: more :=
    ⟨_, List.eraseDups_cons⟩
  rw [hkept] at hdistinct ⊢
  simp only [ColumnTest.ofItems, hdistinct] at htest
  rw [Dialect.testColumn, htest]
  cases more with
  | nil => cases v <;> rfl
  | cons w more => cases v <;> rfl

namespace Sql

/-- The test whether a column has one of the values: the test for the absent value if that is the
only one, an equality for another single value, and a list for several. -/
def Condition.member (e : Expression) : List ColumnValue → Condition
  | [.absent] => .isNull (.column e)
  | values => .oneOf e (values.map ColumnValue.datum)

variable {d : Dialect} {column : String} {e : Expression}

theorem parse_isNull (hcolumn : lex d column.toList = some [.column e]) :
    parse d (column ++ " IS NULL") = some (.isNull (.column e)) := by
  have hgap : ' ' ∈ delimiters := by decide
  have hchars : (column ++ " IS NULL").toList = column.toList ++ ' ' :: "IS NULL".toList := by
    simp [String.toList_append]
  have hrest : lex d (' ' :: "IS NULL".toList) = some [.is, .literal .null] := by
    cases d <;> rfl
  rw [parse, hchars, lex_append d hgap hcolumn, hrest]
  rfl

/-- The condition that a collection of values puts on a column is read as the test for the values
without repetitions. -/
theorem exists_member (hcolumn : lex d column.toList = some [.column e])
    {values : List ColumnValue} (hsome : values ≠ []) {given : Datum} (hgiven : given.Offers values)
    (connective : Connective) :
    ∃ text, d.conditionOf (.record [(column, given)]) connective = .ok (.text text) ∧
      parse d text = some (Condition.member e values.eraseDups) := by
  suffices h : ∃ text, (ColumnTest.member values.eraseDups).render d column = .ok text ∧
      parse d text = some (Condition.member e values.eraseDups) by
    obtain ⟨text, hrender, hparse⟩ := h
    rw [← hgiven.testColumn_eq d column hsome] at hrender
    exact ⟨text, d.conditionOf_entry hrender connective, hparse⟩
  obtain ⟨first, hfirst⟩ := List.exists_mem_of_ne_nil values hsome
  have hkept : values.eraseDups ≠ [] := List.ne_nil_of_mem (List.mem_eraseDups.mpr hfirst)
  generalize values.eraseDups = kept at hkept ⊢
  obtain ⟨v, more, rfl⟩ := List.exists_cons_of_ne_nil hkept
  cases more with
  | nil =>
    cases v with
    | absent => exact ⟨_, rfl, parse_isNull hcolumn⟩
    | int n => exact ⟨_, rfl, parse_equals_value hcolumn (lex_int d n)⟩
    | text s =>
      obtain ⟨literal, hliteral, hlex⟩ := (scalar_text d s).spelled
      cases hliteral
      exact ⟨_, rfl, parse_equals_value hcolumn hlex⟩
  | cons w more =>
    have hspelled : ∀ x ∈ (v :: w :: more).map ColumnValue.datum, Spelled d x := by
      intro x hx
      obtain ⟨y, -, rfl⟩ := List.mem_map.mp hx
      exact y.spelled_datum d
    obtain ⟨text, hrender, hparse⟩ := exists_render_oneOf hcolumn hspelled
    refine ⟨text, ?_, ?_⟩
    · rw [← hrender]
      cases v <;> rfl
    · rw [hparse]
      cases v <;> rfl

/-- The values without repetitions are the absent one alone if it is the only value. -/
theorem eraseDups_eq_absent_iff {values : List ColumnValue} (hsome : values ≠ []) :
    values.eraseDups = [.absent] ↔ ∀ v ∈ values, v = .absent := by
  constructor
  · intro h v hv
    have hmem : v ∈ values.eraseDups := List.mem_eraseDups.mpr hv
    rw [h] at hmem
    exact List.mem_singleton.mp hmem
  · intro h
    obtain ⟨v, rest, rfl⟩ := List.exists_cons_of_ne_nil hsome
    obtain ⟨hv, hrest⟩ := List.forall_mem_cons.mp h
    have hnone : rest.filter (fun w ↦ !w == v) = [] := by
      refine List.filter_eq_nil_iff.mpr fun w hw ↦ ?_
      simp [hrest w hw, hv]
    rw [List.eraseDups_cons, hnone, hv]
    rfl

/-- A column with a value meets the test if the value is one of those asked for, and a column
without a value meets it if there is nothing else that is asked for. -/
theorem Condition.holds_member (columns : Expression → Datum) (e : Expression)
    {values : List ColumnValue} (hsome : values ≠ []) :
    (Condition.member e values.eraseDups).Holds columns ↔
      (columns e ≠ .null ∧ (columns e).IsAmong values) ∨
        (columns e = .null ∧ ∀ v ∈ values, v = .absent) := by
  have hamong : (columns e).IsAmong values ↔ (columns e).IsAmong values.eraseDups := by
    simp [Datum.IsAmong, List.mem_eraseDups]
  rw [← eraseDups_eq_absent_iff hsome, hamong]
  generalize values.eraseDups = kept
  unfold Condition.member
  split
  · rw [Condition.holds_isNull]
    by_cases hnull : columns e = .null
    · simp [hnull]
    · simp [hnull, Datum.IsAmong, ColumnValue.datum, same_null_iff]
  · next hother =>
    have hkept : kept ≠ [.absent] := hother
    rw [Condition.holds_oneOf]
    simp [hkept, Datum.IsAmong]

/-- For a column with a value, the condition that a collection of values puts on it is membership.
For a column without one it is not, unless nothing but the absent value is asked for: among other
values the absent one is never found. So the condition means membership exactly if the absent value
is not asked for together with others, and which rows meet it depends on which values are asked for,
not on their order, on repetitions or on the kind of collection. -/
theorem columns_with_values_found (d : Dialect) {column : String} {e : Expression}
    (hcolumn : lex d column.toList = some [.column e]) {values : List ColumnValue}
    (hsome : values ≠ []) {given : Datum} (hgiven : given.Offers values)
    (connective : Connective) :
    ∃ text c, d.conditionOf (.record [(column, given)]) connective = .ok (.text text) ∧
      parse d text = some c ∧
      (∀ columns, columns e ≠ .null → (c.Holds columns ↔ (columns e).IsAmong values)) ∧
      (∀ columns, columns e = .null → (c.Holds columns ↔ ∀ v ∈ values, v = .absent)) ∧
      ((∀ columns, c.Holds columns ↔ (columns e).IsAmong values) ↔
        (.absent ∈ values → ∀ v ∈ values, v = .absent)) ∧
      ∀ (others : List ColumnValue) (another : Datum), another.Offers others →
        (∀ v, v ∈ others ↔ v ∈ values) →
        ∃ text' c', d.conditionOf (.record [(column, another)]) connective = .ok (.text text') ∧
          parse d text' = some c' ∧ ∀ columns, c'.Holds columns ↔ c.Holds columns := by
  obtain ⟨text, hwritten, hparse⟩ := exists_member hcolumn hsome hgiven connective
  have hvalue (columns : Expression → Datum) (h : columns e ≠ .null) :
      (Condition.member e values.eraseDups).Holds columns ↔ (columns e).IsAmong values := by
    simp [Condition.holds_member columns e hsome, h]
  have hnone (columns : Expression → Datum) (h : columns e = .null) :
      (Condition.member e values.eraseDups).Holds columns ↔ ∀ v ∈ values, v = .absent := by
    simp [Condition.holds_member columns e hsome, h]
  refine ⟨text, _, hwritten, hparse, hvalue, hnone, ⟨fun h habsent ↦ ?_, fun h columns ↦ ?_⟩,
    fun others another hanother hsame ↦ ?_⟩
  · have hmember := (h fun _ ↦ .null).mpr ((Datum.isAmong_null_iff values).mpr habsent)
    exact (hnone (fun _ ↦ .null) rfl).mp hmember
  · by_cases hcell : columns e = .null
    · rw [hnone columns hcell, hcell, Datum.isAmong_null_iff]
      obtain ⟨v, hv⟩ := List.exists_mem_of_ne_nil values hsome
      exact ⟨fun hall ↦ hall v hv ▸ hv, h⟩
    · exact hvalue columns hcell
  · have hothers : others ≠ [] := by
      obtain ⟨v, hv⟩ := List.exists_mem_of_ne_nil values hsome
      exact List.ne_nil_of_mem ((hsame v).mpr hv)
    obtain ⟨text', hwritten', hparse'⟩ := exists_member hcolumn hothers hanother connective
    refine ⟨text', _, hwritten', hparse', fun columns ↦ ?_⟩
    rw [Condition.holds_member columns e hothers, Condition.holds_member columns e hsome]
    simp only [Datum.IsAmong, hsame]

/-- In a list of values that are there, repetitions and order do not matter. -/
theorem repeated_values_found :
    lex .mysql "rev_actor".toList = some [.column (.column "rev_actor")] ∧
      ∃ text c, Dialect.mysql.conditionOf
          (.record [("rev_actor", .list [.int 2, .text "a'b", .int 2])]) .and = .ok (.text text) ∧
        parse .mysql text = some c ∧
        (∀ columns, columns (.column "rev_actor") ≠ .null →
          (c.Holds columns ↔
            (columns (.column "rev_actor")).IsAmong [.int 2, .text "a'b", .int 2])) := by
  have hcolumn : lex .mysql "rev_actor".toList = some [.column (.column "rev_actor")] :=
    lex_name .mysql (by decide)
  have hgiven : Datum.Offers (.list [.int 2, .text "a'b", .int 2])
      [.int 2, .text "a'b", .int 2] := Datum.Offers.list [.int 2, .text "a'b", .int 2]
  obtain ⟨text, c, hwritten, hparse, hvalue, -⟩ :=
    columns_with_values_found .mysql hcolumn (by decide) hgiven .and
  exact ⟨hcolumn, text, c, hwritten, hparse, hvalue⟩

/-- A column without a value is among nothing and one, yet a list of both does not find it. -/
theorem absent_not_found_in_list :
    ∃ text c, Dialect.sqlite.conditionOf (.record [("rev_actor", .list [.null, .int 1])]) .and =
        .ok (.text text) ∧ parse .sqlite text = some c ∧
      Datum.null.IsAmong [.absent, .int 1] ∧ ¬c.Holds fun _ ↦ .null := by
  refine ⟨"rev_actor IN (NULL, 1)", .oneOf (.column "rev_actor") [.null, .int 1], rfl, rfl, ?_, ?_⟩
  · exact (Datum.isAmong_null_iff _).mpr List.mem_cons_self
  · decide

end Sql

end StagedColumns
