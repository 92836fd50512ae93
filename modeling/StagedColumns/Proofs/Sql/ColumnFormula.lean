import StagedColumns.Proofs.Sql.Agreement
import StagedColumns.Proofs.Sql.Membership

/-!
# Trees of column tests

The conditions that the library writes itself are tests of columns, each for a collection of values,
and what it combines of them with `AND` and `OR`, in several layers. Such a test is read as a
condition without a connective of its own, whatever characters the values have
(`AskedColumn.exists_written`). So a text that is built of tests is read as they were put together,
and has the truth value that follows from theirs (`TestTree.built_tests_read_as_asked`).
-/

set_option autoImplicit false

namespace StagedColumns

/-- The condition that a record with one entry gives is the test of its column. -/
theorem Dialect.testColumn_of_conditionOf (d : Dialect) {column text : String} {value : Datum}
    {connective : Connective}
    (h : d.conditionOf (.record [(column, value)]) connective = .ok (.text text)) :
    d.testColumn column value = .ok text := by
  cases htest : d.testColumn column value with
  | error failure =>
    simp only [conditionOf, conditions, testColumns, htest] at h
    cases h
  | ok test =>
    rw [conditionOf_entry htest] at h
    cases h
    rfl

namespace Sql

variable {d : Dialect}

theorem eq_of_mem_columns_member {e : Expression} {values : List ColumnValue} {x : Expression}
    (hx : x ∈ (Condition.member e values).columns) : x = e := by
  unfold Condition.member at hx
  split at hx
  · exact List.mem_singleton.mp hx
  · unfold Condition.oneOf at hx
    split at hx <;> exact List.mem_singleton.mp hx

/-- What says a single comparison has no connective. -/
theorem Formula.exists_eq_basic {f : Formula} {e : Expression} {values : List ColumnValue}
    (h : f.condition? d = some (Condition.member e values)) : ∃ parts, f = .basic parts := by
  cases f with
  | basic parts => exact ⟨parts, rfl⟩
  | joined c left right =>
    obtain ⟨first, -, h⟩ := Option.bind_eq_some_iff.mp h
    obtain ⟨second, -, h⟩ := Option.bind_eq_some_iff.mp h
    unfold Condition.member Condition.oneOf at h
    split at h
    · cases h
    · split at h <;> cases h

/-- A column that is asked for one of several values. -/
structure AskedColumn (d : Dialect) where
  column : String
  /-- What the name of the column is read as. -/
  expression : Expression
  values : List ColumnValue
  /-- What gives the values. -/
  given : Datum
  reading : lex d column.toList = some [.column expression]
  free : ¬IsKeyword expression
  nonempty : values ≠ []
  offers : given.Offers values

namespace AskedColumn

/-- The condition on the column: it has one of the values. -/
def condition (a : AskedColumn d) : Condition :=
  .member a.expression a.values.eraseDups

/-- The condition that the library writes for the column is read as one without a connective of its
own, and says what was asked for. -/
theorem exists_written (a : AskedColumn d) (connective : Connective) :
    ∃ written : WrittenCondition d,
      d.conditionOf (.record [(a.column, a.given)]) connective = .ok (.text written.text) ∧
        (∃ parts, written.formula = .basic parts) ∧
        written.formula.condition? d = some a.condition := by
  obtain ⟨text, hwritten, hparse⟩ := exists_member a.reading a.nonempty a.offers connective
  obtain ⟨f, hread, hcondition⟩ := exists_formula_of_parse hparse fun x hx ↦
    (eq_of_mem_columns_member hx).symm ▸ a.free
  exact ⟨⟨text, f, hread⟩, hwritten, Formula.exists_eq_basic hcondition, hcondition⟩

end AskedColumn

/-- Tests of columns that are combined in several layers. A node has a part at least. -/
inductive TestTree (d : Dialect)
  | leaf (asked : AskedColumn d)
  | node (c : Connective) (first : TestTree d) (rest : List (TestTree d))

namespace TestTree

theorem induct {motive : TestTree d → Prop} (leaf : ∀ asked, motive (.leaf asked))
    (node : ∀ c first rest, motive first → (∀ part ∈ rest, motive part) →
      motive (.node c first rest)) : ∀ tree, motive tree :=
  @TestTree.rec d motive (fun parts ↦ ∀ part ∈ parts, motive part) leaf node nofun
    fun _ _ hpart hrest ↦ List.forall_mem_cons.mpr ⟨hpart, hrest⟩

mutual

/-- The condition that the tree gives. -/
def build : TestTree d → Except Failure Datum
  | leaf asked => d.conditionOf (.record [(asked.column, asked.given)]) .and
  | node c first rest => do
    let condition ← first.build
    d.conditionOf (.list (condition :: (← buildAll rest))) c

/-- The conditions that trees give. -/
def buildAll : List (TestTree d) → Except Failure (List Datum)
  | [] => .ok []
  | part :: rest => do
    let condition ← part.build
    return condition :: (← buildAll rest)

end

theorem build_node (c : Connective) (first : TestTree d) (rest : List (TestTree d)) :
    (node c first rest).build =
      buildAll (first :: rest) >>= fun conditions ↦ d.conditionOf (.list conditions) c := by
  rw [build, buildAll]
  simp only [bind_assoc, pure_bind]

mutual

/-- The truth value of a tree where the columns have the given values. -/
def truth (values : Expression → Datum) : TestTree d → Truth
  | leaf asked => asked.condition.truth values
  | node c first rest => Truth.combineAll c (first.truth values :: truths values rest)

/-- The truth values of trees. -/
def truths (values : Expression → Datum) : List (TestTree d) → List Truth
  | [] => []
  | part :: rest => part.truth values :: truths values rest

end

/-- The texts of the conditions that are written for columns one by one. -/
theorem exists_testColumns (asked : List (AskedColumn d)) :
    ∃ texts : List String,
      d.testColumns (asked.map fun a ↦ (a.column, a.given)) = .ok texts ∧
        buildAll (asked.map leaf) = .ok (texts.map .text) := by
  induction asked with
  | nil => exact ⟨[], rfl, rfl⟩
  | cons a rest ih =>
    obtain ⟨written, hwritten, -⟩ := a.exists_written .and
    obtain ⟨texts, htests, hbuild⟩ := ih
    have htest := d.testColumn_of_conditionOf hwritten
    refine ⟨written.text :: texts, ?_, ?_⟩
    · rw [List.map_cons, Dialect.testColumns, htest, htests]
      rfl
    · rw [List.map_cons, buildAll, build, hwritten, hbuild]
      rfl

/-- A record asks for all its columns as a node with a test of each does. -/
theorem conditionOf_record (c : Connective) (first : AskedColumn d) (rest : List (AskedColumn d)) :
    d.conditionOf (.record ((first :: rest).map fun a ↦ (a.column, a.given))) c =
      (node c (.leaf first) (rest.map .leaf)).build := by
  obtain ⟨texts, htests, hbuild⟩ := exists_testColumns (first :: rest)
  have hnode : (node c (.leaf first) (rest.map .leaf)).build =
      d.conditionOf (.list (texts.map .text)) c := by
    rw [build_node, ← List.map_cons, hbuild]
    rfl
  have hconditions : d.conditions (.record ((first :: rest).map fun a ↦ (a.column, a.given))) =
      d.conditions (.list (texts.map .text)) := by
    rw [Dialect.conditions, htests]
    rfl
  rw [hnode, Dialect.conditionOf, hconditions, Dialect.conditionOf]

/-- The tree of conditions is what is written for the tests. -/
structure WrittenAs (tree : TestTree d) (conditions : ConditionTree d) : Prop where
  full : ¬conditions.HasEmpty
  build : conditions.build = tree.build
  truth (values : Expression → Datum) :
    conditions.truth (partsTruth d values) = tree.truth values

theorem exists_conditions_of_all {parts : List (TestTree d)}
    (h : ∀ part ∈ parts, ∃ conditions, part.WrittenAs conditions) :
    ∃ all : List (ConditionTree d), (∀ conditions ∈ all, ¬conditions.HasEmpty) ∧
      ConditionTree.buildAll all = buildAll parts ∧
      ∀ values, ConditionTree.truths (partsTruth d values) all = truths values parts := by
  induction parts with
  | nil => exact ⟨[], nofun, rfl, fun _ ↦ rfl⟩
  | cons part rest ih =>
    obtain ⟨⟨conditions, hpart⟩, hothers⟩ := List.forall_mem_cons.mp h
    obtain ⟨all, hfull, hbuild, htruth⟩ := ih hothers
    refine ⟨conditions :: all, List.forall_mem_cons.mpr ⟨hpart.full, hfull⟩, ?_, fun values ↦ ?_⟩
    · rw [ConditionTree.buildAll, buildAll, hpart.build, hbuild]
    · rw [ConditionTree.truths, truths, hpart.truth, htruth]

theorem exists_conditions (tree : TestTree d) : ∃ conditions, tree.WrittenAs conditions := by
  induction tree using induct with
  | leaf asked =>
    obtain ⟨written, hwritten, -, hcondition⟩ := asked.exists_written .and
    refine ⟨.leaf written, nofun, hwritten.symm, fun values ↦ ?_⟩
    exact written.formula.truth_of_condition? hcondition values
  | node c first rest hfirst hrest =>
    obtain ⟨conditions, hfirst⟩ := hfirst
    obtain ⟨all, hfull, hbuild, htruth⟩ := exists_conditions_of_all hrest
    refine ⟨.node c (conditions :: all), ?_, ?_, fun values ↦ ?_⟩
    · have hparts : ∀ part ∈ conditions :: all, ¬part.HasEmpty :=
        List.forall_mem_cons.mpr ⟨hfirst.full, hfull⟩
      rw [ConditionTree.hasEmpty_node_iff]
      rintro (hnone | ⟨part, hmem, hempty⟩)
      · cases hnone
      · exact hparts part hmem hempty
    · rw [ConditionTree.build, ConditionTree.buildAll, build_node, buildAll, hfirst.build, hbuild]
    · rw [ConditionTree.truth, ConditionTree.truths, truth, hfirst.truth, htruth]

/-- What is built of tests of columns is a text that is read as they were put together: it has the
truth value that follows from the tests with `AND` and `OR` at the nodes, whatever values the
columns have. -/
theorem built_tests_read_as_asked (tree : TestTree d) :
    ∃ text f, tree.build = .ok (.text text) ∧ readFormula d text = some f ∧
      ∀ values, f.truth (partsTruth d values) = tree.truth values := by
  obtain ⟨conditions, hwritten⟩ := tree.exists_conditions
  obtain ⟨f, hf⟩ := Option.ne_none_iff_exists'.mp
    (mt conditions.formula_eq_none_iff.mp hwritten.full)
  obtain ⟨text, hbuild, hread⟩ := conditions.exists_build f hf
  refine ⟨text, f, hwritten.build ▸ hbuild, hread, fun values ↦ ?_⟩
  rw [conditions.truth_of_formula _ f hf, hwritten.truth]

end TestTree

end Sql

end StagedColumns
