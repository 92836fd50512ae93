import Mathlib.Data.List.Forall2
import StagedColumns.Failure.Report
import StagedColumns.Proofs.Sql.Formula

/-!
# Trees of conditions

Conditions are combined, the combinations are combined again, with one connective or the other, and
so on: a tree whose leaves are conditions and whose nodes are lists. Each node is built by
`Dialect.conditionOf` from what its parts give. Only a node with several parts puts them in
parentheses; a node with a single part gives what the part gives.

The leaves may be any conditions that `readFormula` reads, so in MySQL they have the words `AND` and
`OR` and not the signs `&&` and `||`.

The text of a tree without empty nodes is read as the formula that the tree stands for, so it has
the truth value that the tree has, whatever the truth values of the basic conditions are. An empty
node anywhere in a tree fails all of it (`built_tree_reads_as_denoted`).
-/

set_option autoImplicit false

namespace StagedColumns

/-- The conditions of a list of texts are combined as the texts are. -/
theorem Dialect.conditionOf_texts (d : Dialect) (texts : List String) (c : Connective) :
    d.conditionOf (.list (texts.map .text)) c = (combine c texts).map .text := by
  rcases texts with _ | ⟨first, _ | ⟨second, rest⟩⟩
  · rfl
  · rfl
  · have hplain : ((first :: second :: rest).map Datum.text).map Datum.plain =
        first :: second :: rest := by
      rw [List.map_map]
      exact List.map_id _
    show (do return Datum.text (← combine c
      (((first :: second :: rest).map Datum.text).map Datum.plain))) = _
    rw [hplain]
    rfl

namespace Sql

/-- A condition that a database reads, with what it is read as. In MySQL it has no `&&` or `||`. -/
structure WrittenCondition (d : Dialect) where
  text : String
  formula : Formula
  reading : readFormula d text = some formula

/-- Conditions that are combined in several layers. -/
inductive ConditionTree (d : Dialect)
  | leaf (condition : WrittenCondition d)
  | node (c : Connective) (parts : List (ConditionTree d))

/-! ### Truth values -/

namespace Truth

/-- The truth value that another one combined with does not change. -/
def neutral : Connective → Bool
  | .and => true
  | .or => false

/-- The truth value of several conditions together. With `AND` they are false if one of them is, and
true if all are; with `OR` they are true if one of them is, and false if all are; else what they are
is unknown. -/
def combineAll (c : Connective) (values : List Truth) : Truth :=
  if values.any (· = some (!neutral c)) then some (!neutral c)
  else if values.all (· = some (neutral c)) then some (neutral c)
  else none

theorem combineAll_singleton (c : Connective) (t : Truth) : combineAll c [t] = t := by
  cases c <;> rcases t with _ | _ | _ <;> rfl

theorem combineAll_combine (c : Connective) (t other : Truth) (values : List Truth) :
    combineAll c (combine c t other :: values) = combineAll c (t :: other :: values) := by
  have hany : (combine c t other :: values).any (· = some (!neutral c)) =
      (t :: other :: values).any (· = some (!neutral c)) := by
    rw [List.any_cons, List.any_cons, List.any_cons, ← Bool.or_assoc]
    congr 1
    cases c <;> rcases t with _ | _ | _ <;> rcases other with _ | _ | _ <;> rfl
  have hall : (combine c t other :: values).all (· = some (neutral c)) =
      (t :: other :: values).all (· = some (neutral c)) := by
    rw [List.all_cons, List.all_cons, List.all_cons, ← Bool.and_assoc]
    congr 1
    cases c <;> rcases t with _ | _ | _ <;> rcases other with _ | _ | _ <;> rfl
  rw [combineAll, combineAll, hany, hall]

end Truth

namespace Formula

/-- The truth value of a formula where the basic conditions have the given ones. -/
def truth (basicTruth : List Part → Truth) : Formula → Truth
  | basic parts => basicTruth parts
  | joined c left right => Truth.combine c (left.truth basicTruth) (right.truth basicTruth)

theorem truth_foldl (basicTruth : List Part → Truth) (c : Connective) (f : Formula)
    (rest : List Formula) : (rest.foldl (joined c) f).truth basicTruth =
      Truth.combineAll c ((f :: rest).map (truth basicTruth)) := by
  induction rest generalizing f with
  | nil => exact (Truth.combineAll_singleton c _).symm
  | cons second rest ih =>
    rw [List.foldl_cons, ih, List.map_cons, truth, Truth.combineAll_combine]
    rfl

end Formula

/-! ### Trees -/

namespace ConditionTree

variable {d : Dialect}

/-- What holds of conditions, and of a node if it holds of all its parts, holds of every tree. -/
theorem induct {motive : ConditionTree d → Prop} (leaf : ∀ condition, motive (.leaf condition))
    (node : ∀ c parts, (∀ part ∈ parts, motive part) → motive (.node c parts)) :
    ∀ tree, motive tree :=
  @ConditionTree.rec d motive (fun parts ↦ ∀ part ∈ parts, motive part) leaf
    (fun c parts ↦ node c parts) nofun
    fun _ _ hpart hrest ↦ List.forall_mem_cons.mpr ⟨hpart, hrest⟩

mutual

/-- The condition that the tree gives. -/
def build : ConditionTree d → Except Failure Datum
  | leaf condition => .ok (.text condition.text)
  | node c parts => do d.conditionOf (.list (← buildAll parts)) c

/-- The conditions that trees give, up to the first one that gives none. -/
def buildAll : List (ConditionTree d) → Except Failure (List Datum)
  | [] => .ok []
  | part :: rest => do
    let condition ← part.build
    return condition :: (← buildAll rest)

end

mutual

/-- The formula that the tree stands for; none, if it has an empty node. -/
def formula : ConditionTree d → Option Formula
  | leaf condition => some condition.formula
  | node c parts => formulas parts >>= Formula.join c

/-- The formulas that trees stand for. -/
def formulas : List (ConditionTree d) → Option (List Formula)
  | [] => some []
  | part :: rest => do
    let f ← part.formula
    return f :: (← formulas rest)

end

mutual

/-- The truth value of a tree where the basic conditions of its leaves have the given ones. -/
def truth (basicTruth : List Part → Truth) : ConditionTree d → Truth
  | leaf condition => condition.formula.truth basicTruth
  | node c parts => Truth.combineAll c (truths basicTruth parts)

/-- The truth values of trees. -/
def truths (basicTruth : List Part → Truth) : List (ConditionTree d) → List Truth
  | [] => []
  | part :: rest => part.truth basicTruth :: truths basicTruth rest

end

/-- Some node of the tree has no parts. -/
inductive HasEmpty : ConditionTree d → Prop
  | here (c : Connective) : HasEmpty (node c [])
  | inside {c : Connective} {parts : List (ConditionTree d)} {part : ConditionTree d}
    (hmem : part ∈ parts) (hpart : HasEmpty part) : HasEmpty (node c parts)

theorem hasEmpty_node_iff {c : Connective} {parts : List (ConditionTree d)} :
    (node c parts).HasEmpty ↔ parts = [] ∨ ∃ part ∈ parts, part.HasEmpty := by
  constructor
  · intro h
    cases h with
    | here => exact .inl rfl
    | inside hmem hpart => exact .inr ⟨_, hmem, hpart⟩
  · rintro (rfl | ⟨part, hmem, hpart⟩)
    · exact .here c
    · exact .inside hmem hpart

theorem formulas_eq_none_iff {parts : List (ConditionTree d)} :
    formulas parts = none ↔ ∃ part ∈ parts, part.formula = none := by
  induction parts with
  | nil => simp [formulas]
  | cons part rest ih =>
    rw [formulas]
    cases hpart : part.formula with
    | none => simp [hpart]
    | some f => cases hrest : formulas rest <;> simp_all

/-- The trees stand for the formulas, one for one. -/
def StandFor (parts : List (ConditionTree d)) (fs : List Formula) : Prop :=
  List.Forall₂ (fun part f ↦ part.formula = some f) parts fs

theorem standFor_of_formulas {parts : List (ConditionTree d)} {fs : List Formula}
    (h : formulas parts = some fs) : StandFor parts fs := by
  induction parts generalizing fs with
  | nil =>
    cases h
    exact .nil
  | cons part rest ih =>
    obtain ⟨f, hpart, h⟩ := Option.bind_eq_some_iff.mp h
    obtain ⟨more, hrest, h⟩ := Option.bind_eq_some_iff.mp h
    cases h
    exact .cons hpart (ih hrest)

/-- Of parts that stand for formulas the node does so, too, if there are any. -/
theorem join_eq_none_iff {c : Connective} {parts : List (ConditionTree d)} {fs : List Formula}
    (h : formulas parts = some fs) : Formula.join c fs = none ↔ parts = [] := by
  cases standFor_of_formulas h with
  | nil => exact ⟨fun _ ↦ rfl, fun _ ↦ rfl⟩
  | cons => exact ⟨nofun, nofun⟩

/-- A tree stands for no formula exactly if it has an empty node. -/
theorem formula_eq_none_iff (tree : ConditionTree d) : tree.formula = none ↔ tree.HasEmpty := by
  induction tree using induct with
  | leaf condition => exact ⟨nofun, nofun⟩
  | node c parts ih =>
    have hparts : formulas parts = none ↔ ∃ part ∈ parts, part.HasEmpty := by
      rw [formulas_eq_none_iff]
      exact exists_congr fun part ↦ and_congr_right (ih part)
    rw [formula, hasEmpty_node_iff, ← hparts]
    cases hformulas : formulas parts with
    | none => simp
    | some fs => simp [join_eq_none_iff hformulas]

theorem map_truth_of_standFor {basicTruth : List Part → Truth} {parts : List (ConditionTree d)}
    {fs : List Formula} (h : StandFor parts fs)
    (hparts : ∀ part ∈ parts, ∀ f, part.formula = some f →
      f.truth basicTruth = part.truth basicTruth) :
    fs.map (Formula.truth basicTruth) = truths basicTruth parts := by
  induction h with
  | nil => rfl
  | cons hpart hrest ih =>
    obtain ⟨hfirst, hothers⟩ := List.forall_mem_cons.mp hparts
    rw [List.map_cons, truths, hfirst _ hpart, ih hothers]

/-- The formula that a tree stands for has the truth value of the tree. -/
theorem truth_of_formula (basicTruth : List Part → Truth) (tree : ConditionTree d) :
    ∀ f, tree.formula = some f → f.truth basicTruth = tree.truth basicTruth := by
  induction tree using induct with
  | leaf condition =>
    intro f h
    cases h
    rfl
  | node c parts ih =>
    intro f h
    obtain ⟨fs, hfs, hjoin⟩ := Option.bind_eq_some_iff.mp h
    have htruths := map_truth_of_standFor (standFor_of_formulas hfs) ih
    cases fs with
    | nil => cases hjoin
    | cons first rest =>
      cases hjoin
      rw [Formula.truth_foldl, htruths, truth]

/-! ### The text of a tree -/

theorem exists_buildAll {parts : List (ConditionTree d)} {fs : List Formula}
    (h : StandFor parts fs)
    (hparts : ∀ part ∈ parts, ∀ f, part.formula = some f →
      ∃ text, part.build = .ok (.text text) ∧ readFormula d text = some f) :
    ∃ texts : List String, buildAll parts = .ok (texts.map .text) ∧
      texts.map (readFormula d) = fs.map some := by
  induction h with
  | nil => exact ⟨[], rfl, rfl⟩
  | cons hpart hrest ih =>
    obtain ⟨hfirst, hothers⟩ := List.forall_mem_cons.mp hparts
    obtain ⟨text, hbuild, hread⟩ := hfirst _ hpart
    obtain ⟨texts, hbuilds, hreads⟩ := ih hothers
    refine ⟨text :: texts, ?_, ?_⟩
    · rw [buildAll, hbuild, hbuilds]
      rfl
    · rw [List.map_cons, List.map_cons, hread, hreads]

/-- The text of a tree that stands for a formula is read as the formula. -/
theorem exists_build (tree : ConditionTree d) :
    ∀ f, tree.formula = some f →
      ∃ text, tree.build = .ok (.text text) ∧ readFormula d text = some f := by
  induction tree using induct with
  | leaf condition =>
    intro f h
    cases h
    exact ⟨condition.text, rfl, condition.reading⟩
  | node c parts ih =>
    intro f h
    obtain ⟨fs, hfs, hjoin⟩ := Option.bind_eq_some_iff.mp h
    obtain ⟨texts, hbuilds, hreads⟩ := exists_buildAll (standFor_of_formulas hfs) ih
    cases fs with
    | nil => cases hjoin
    | cons first rest =>
      cases hjoin
      obtain ⟨text, hcombine, hread⟩ := readFormula_combine c hreads
      refine ⟨text, ?_, hread⟩
      rw [build, hbuilds]
      show d.conditionOf (.list (texts.map .text)) c = _
      rw [d.conditionOf_texts, hcombine]
      rfl

theorem buildAll_of_hasEmpty {parts : List (ConditionTree d)}
    (hparts : ∀ part ∈ parts, part.HasEmpty → part.build = .error .noConditions)
    (hempty : ∃ part ∈ parts, part.HasEmpty) : buildAll parts = .error .noConditions := by
  induction parts with
  | nil => simp at hempty
  | cons part rest ih =>
    obtain ⟨hfirst, hothers⟩ := List.forall_mem_cons.mp hparts
    cases hformula : part.formula with
    | none =>
      rw [buildAll, hfirst ((formula_eq_none_iff part).mp hformula)]
      rfl
    | some f =>
      -- a tree that stands for a formula has no empty node, so a later one has it
      have hfull : ¬part.HasEmpty := by
        rw [← formula_eq_none_iff, hformula]
        nofun
      have hrest : ∃ other ∈ rest, other.HasEmpty := by
        simpa [hfull] using hempty
      obtain ⟨text, hbuild, -⟩ := part.exists_build f hformula
      rw [buildAll, hbuild, ih hothers hrest]
      rfl

/-- A tree with an empty node gives no condition. -/
theorem build_of_hasEmpty (tree : ConditionTree d) :
    tree.HasEmpty → tree.build = .error .noConditions := by
  induction tree using induct with
  | leaf condition => nofun
  | node c parts ih =>
    intro h
    rw [hasEmpty_node_iff] at h
    rw [build]
    rcases h with rfl | hempty
    · rfl
    · rw [buildAll_of_hasEmpty ih hempty]
      rfl

/-- A tree of conditions with `AND` or `OR` at each node, without empty nodes, gives a text that is
read as the formula the tree stands for, where each `AND` and `OR` joins what the parts of its node
stand for. So the text has the truth value of the tree, whatever truth values the basic conditions
have in a row. A tree with an empty node, on whatever level, gives no condition but a report of
wrong usage. -/
theorem built_tree_reads_as_denoted (tree : ConditionTree d) :
    (tree.HasEmpty → ∃ failure, tree.build = .error failure ∧ failure.kind? = some .usage) ∧
      (¬tree.HasEmpty → ∃ text f, tree.build = .ok (.text text) ∧ tree.formula = some f ∧
        readFormula d text = some f ∧
        ∀ basicTruth, f.truth basicTruth = tree.truth basicTruth) := by
  constructor
  · intro hempty
    exact ⟨.noConditions, tree.build_of_hasEmpty hempty, rfl⟩
  · intro hfull
    rw [← formula_eq_none_iff] at hfull
    obtain ⟨f, hf⟩ := Option.ne_none_iff_exists'.mp hfull
    obtain ⟨text, hbuild, hread⟩ := tree.exists_build f hf
    exact ⟨text, f, hbuild, hf, hread, fun basicTruth ↦ tree.truth_of_formula basicTruth f hf⟩

/-- Two conditions joined by `OR`, the first of which has parentheses and the word itself in a text
literal, and the second of which has an `AND` that is none. -/
def eitherWay : WrittenCondition .sqlite where
  text := "a = ') OR (' OR b BETWEEN 1 AND 2"
  formula := .joined .or
    (.basic [.lexeme ⟨.word, ['a']⟩, .lexeme ⟨.sign, ['=']⟩,
      .lexeme ⟨.quoted, "') OR ('".toList⟩])
    (.basic [.lexeme ⟨.word, ['b']⟩, .group .between [.lexeme ⟨.word, ['1']⟩],
      .lexeme ⟨.word, ['2']⟩])
  reading := rfl

/-- A node with a single part does not put it in parentheses, and the node above still does. -/
theorem nested_conditions_read :
    let tree : ConditionTree .sqlite := node .and [node .or [leaf eitherWay], leaf eitherWay]
    ¬tree.HasEmpty ∧ ∃ text, tree.build = .ok (.text text) ∧
      readFormula .sqlite text =
        some (.joined .and eitherWay.formula eitherWay.formula) := by
  intro tree
  have hformula : tree.formula = some (.joined .and eitherWay.formula eitherWay.formula) := rfl
  have hfull : ¬tree.HasEmpty := by
    rw [← formula_eq_none_iff, hformula]
    nofun
  obtain ⟨text, f, hbuild, hf, hread, -⟩ := (built_tree_reads_as_denoted tree).2 hfull
  rw [hformula] at hf
  cases hf
  exact ⟨hfull, text, hbuild, hread⟩

end ConditionTree

end Sql

end StagedColumns
