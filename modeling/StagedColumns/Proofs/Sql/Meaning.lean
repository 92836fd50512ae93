import StagedColumns.Datum.Equality
import StagedColumns.Query.Expression
import StagedColumns.Sql.Condition

/-!
# What a condition says

A condition has one of three truth values for a row, since a comparison with the absent value is
unknown. A row meets the condition if it is true; unknown does not do. The connectives are those of
the strong three-valued logic, so for meeting a condition they are the usual ones.
-/

set_option autoImplicit false

namespace StagedColumns.Sql

/-- What a condition compares. -/
inductive Operand
  | column (e : Expression)
  | value (v : Datum)

/-- A condition as a database takes it. -/
inductive Condition
  | equal (left right : Operand)
  | isNull (o : Operand)
  | among (o : Operand) (values : List Datum)
  | joined (c : Connective) (left right : Condition)

/-- A truth value, or none where it is unknown. -/
abbrev Truth := Option Bool

namespace Truth

/-- Combines two truth values. -/
def combine : Connective → Truth → Truth → Truth
  | .and, some false, _ | .and, _, some false => some false
  | .and, some true, some true => some true
  | .or, some true, _ | .or, _, some true => some true
  | .or, some false, some false => some false
  | _, _, _ => none

theorem combine_or_iff (t other : Truth) :
    combine .or t other = some true ↔ t = some true ∨ other = some true := by
  rcases t with _ | _ | _ <;> rcases other with _ | _ | _ <;> decide

end Truth

/-- Whether two values are equal, which is unknown where one of them is absent. -/
def equality : Datum → Datum → Truth
  | .null, _ | _, .null => none
  | a, b => some (a.same b)

/-- Nothing but the absent value is the same as it. -/
theorem same_null_iff (a : Datum) : a.same .null = true ↔ a = .null := by
  cases a <;> simp [Datum.same, Datum.integer?]

theorem equality_iff (a b : Datum) :
    equality a b = some true ↔ a ≠ .null ∧ a.same b = true := by
  unfold equality
  split
  · simp
  · simp [same_null_iff]
  · simp_all

/-- The value of an operand where the columns have the given values. -/
def Operand.eval (values : Expression → Datum) : Operand → Datum
  | column e => values e
  | value v => v

namespace Condition

/-- The truth value of a condition where the columns have the given values. -/
def truth (values : Expression → Datum) : Condition → Truth
  | equal left right => equality (left.eval values) (right.eval values)
  | isNull o => some (match o.eval values with | .null => true | _ => false)
  | among o listed =>
    (listed.map (equality (o.eval values))).foldr (Truth.combine .or) (some false)
  | joined c left right => Truth.combine c (left.truth values) (right.truth values)

/-- The condition is met where the columns have the given values. -/
def Holds (values : Expression → Datum) (c : Condition) : Prop :=
  c.truth values = some true

instance (values : Expression → Datum) (c : Condition) : Decidable (c.Holds values) :=
  inferInstanceAs (Decidable (_ = _))

variable {values : Expression → Datum}

theorem holds_or (c other : Condition) :
    (joined .or c other).Holds values ↔ c.Holds values ∨ other.Holds values :=
  Truth.combine_or_iff _ _

theorem holds_isNull (e : Expression) :
    (isNull (.column e)).Holds values ↔ values e = .null := by
  unfold Holds truth Operand.eval
  split <;> simp_all

theorem holds_equal (e : Expression) (v : Datum) :
    (equal (.column e) (.value v)).Holds values ↔
      values e ≠ .null ∧ (values e).same v = true :=
  equality_iff _ v

theorem holds_among (e : Expression) (listed : List Datum) :
    (among (.column e) listed).Holds values ↔
      values e ≠ .null ∧ ∃ v ∈ listed, (values e).same v = true := by
  unfold Holds truth
  induction listed with
  | nil => simp
  | cons v rest ih =>
    rw [List.map_cons, List.foldr_cons, Truth.combine_or_iff, ih, equality_iff]
    simp only [Operand.eval, List.mem_cons, exists_eq_or_imp, ← and_or_left]

/-- Conditions one after the other with a connective between them. -/
def chain (c : Connective) (first : Condition) (rest : List Condition) : Condition :=
  rest.foldl (joined c) first

theorem holds_chain_or (first : Condition) (rest : List Condition) :
    (chain .or first rest).Holds values ↔ ∃ c ∈ first :: rest, c.Holds values := by
  induction rest generalizing first with
  | nil => simp [chain]
  | cons second rest ih =>
    have hchain := ih (joined .or first second)
    simp only [chain, List.foldl_cons, List.mem_cons, exists_eq_or_imp, holds_or, or_assoc]
      at hchain ⊢
    exact hchain

end Condition

end StagedColumns.Sql
