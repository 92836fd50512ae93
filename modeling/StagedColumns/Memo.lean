import StagedColumns.Operation

/-!
# Memos

A memo keeps one value for each name, and a value once kept never changes. The factory that makes a
missing value may work on the same memo, even on the same name; if it thereby comes to a value for
that name, that value stays and the factory's own is dropped.
-/

set_option autoImplicit false

namespace StagedColumns

/-- The values kept so far. -/
structure Memo (α : Type) where
  kept : OrderedMap α

namespace Memo

variable {σ α : Type}

/-- The memo that keeps nothing yet. -/
def empty : Memo α :=
  ⟨.empty⟩

/-- The value kept under the name. -/
def get? (m : Memo α) (name : String) : Option α :=
  m.kept.get? name

/-- The number of values kept. -/
def size (m : Memo α) : Nat :=
  m.kept.size

/-- Keeps a value under a name that has none, and gives the value kept under the name. -/
def settle (name : String) (value : α) : Operation σ (Memo α) α :=
  fun m ↦
    match m.get? name with
    | some earlier => ⟨.ok earlier, m, []⟩
    | none => ⟨.ok value, ⟨m.kept.put name value⟩, []⟩

/-- The value kept under the name, which is made and kept on first use. -/
def getOrMake (name : String) (factory : Operation σ (Memo α) α) : Operation σ (Memo α) α := do
  match (← Operation.look).get? name with
  | some value => return value
  | none => settle name (← factory)

end Memo

/-- A factory of a value under a name, which first uses the memo for other factories in turn. -/
inductive Recipe (α : Type)
  | mk (name : String) (before : List (Recipe α)) (result : Except Failure α)

namespace Recipe

variable {α : Type}

mutual

/-- Uses the memo for the recipe. A factory that runs gives its name as a sign at its start. -/
def use : Recipe α → Operation String (Memo α) α
  | .mk name before result =>
    Memo.getOrMake name (do
      Operation.sign name
      useAll before
      Operation.ofExcept result)
termination_by structural r => r

/-- Uses the memo for one recipe after the other. -/
def useAll : List (Recipe α) → Operation String (Memo α) Unit
  | [] => pure ()
  | r :: rest => do
    let _ ← r.use
    useAll rest
termination_by structural rs => rs

end

end Recipe

end StagedColumns
