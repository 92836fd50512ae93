import StagedColumns.Failure

/-!
# Operations

An operation works on a state, may fail, and gives signs of what it does on the way: its trace. A
failure ends the operation but undoes nothing, so the state and the trace are those of the moment of
failure. Operations form a lawful monad.
-/

set_option autoImplicit false

namespace StagedColumns

variable {σ ω τ α β : Type}

/-- What came of running an operation. -/
structure Outcome (σ ω α : Type) where
  result : Except Failure α
  state : ω
  trace : List σ

/-- An operation with signs in `σ` on a state in `ω` that gives a result in `α`. -/
def Operation (σ ω α : Type) : Type :=
  ω → Outcome σ ω α

namespace Operation

/-- What comes of running the operation on a state. -/
def run (op : Operation σ ω α) (state : ω) : Outcome σ ω α :=
  op state

/-- The operation that gives a result and does nothing. -/
def give (value : α) : Operation σ ω α :=
  fun state ↦ ⟨.ok value, state, []⟩

/-- The operation that fails and does nothing. -/
def fail (failure : Failure) : Operation σ ω α :=
  fun state ↦ ⟨.error failure, state, []⟩

/-- The second operation after the first one, unless that fails. -/
def andThen (op : Operation σ ω α) (next : α → Operation σ ω β) : Operation σ ω β :=
  fun state ↦
    let first := op state
    match first.result with
    | .error failure => ⟨.error failure, first.state, first.trace⟩
    | .ok value =>
      let second := next value first.state
      ⟨second.result, second.state, first.trace ++ second.trace⟩

instance : Monad (Operation σ ω) where
  pure := give
  bind := andThen

theorem andThen_give (op : Operation σ ω α) : op.andThen give = op := by
  funext state
  unfold andThen give
  rcases op state with ⟨result, later, trace⟩
  cases result <;> simp

theorem give_andThen (value : α) (next : α → Operation σ ω β) :
    (give value).andThen next = next value := by
  funext state
  simp [andThen, give]

theorem andThen_assoc {γ : Type} (op : Operation σ ω α) (next : α → Operation σ ω β)
    (last : β → Operation σ ω γ) :
    (op.andThen next).andThen last = op.andThen fun value ↦ (next value).andThen last := by
  funext state
  unfold andThen
  rcases op state with ⟨result, later, trace⟩
  cases result with
  | error failure => rfl
  | ok value =>
    rcases h : next value later with ⟨result, latest, more⟩
    cases result <;> simp [h]

instance : LawfulMonad (Operation σ ω) :=
  LawfulMonad.mk' _ andThen_give give_andThen andThen_assoc

/-- The operation that gives what a computation gives, or fails as it does. -/
def ofExcept : Except Failure α → Operation σ ω α
  | .ok value => give value
  | .error failure => fail failure

/-- The operation that gives one sign. -/
def sign (s : σ) : Operation σ ω Unit :=
  fun state ↦ ⟨.ok (), state, [s]⟩

/-- The operation that gives several signs. -/
def signAll (signs : List σ) : Operation σ ω Unit :=
  fun state ↦ ⟨.ok (), state, signs⟩

/-- The operation that gives the state. -/
def look : Operation σ ω ω :=
  fun state ↦ ⟨.ok state, state, []⟩

/-- The operation that changes the state. -/
def change (f : ω → ω) : Operation σ ω Unit :=
  fun state ↦ ⟨.ok (), f state, []⟩

/-- The operation that does something else instead of failing. -/
def orElseWith (f : Failure → Operation σ ω α) (op : Operation σ ω α) : Operation σ ω α :=
  fun state ↦
    let first := op state
    match first.result with
    | .ok value => ⟨.ok value, first.state, first.trace⟩
    | .error failure =>
      let second := f failure first.state
      ⟨second.result, second.state, first.trace ++ second.trace⟩

/-- The operation on a part of a larger state. -/
def onPart (part : τ → ω) (put : ω → τ → τ) (op : Operation σ ω α) : Operation σ τ α :=
  fun whole ↦
    let outcome := op (part whole)
    ⟨outcome.result, put outcome.state whole, outcome.trace⟩

end Operation

end StagedColumns
