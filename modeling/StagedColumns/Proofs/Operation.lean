import StagedColumns.Operation

/-!
# Operations that succeed

`op.Gives state value later` says that an operation, run on a state, gives a value and leaves
another state. Sequences of operations are followed step by step with `Gives.bind`; what an
operation signals on the way is left open. Where the signs or the failures matter as well, a
sequence is followed with `bind_of_ok` and `bind_of_error`. `op.Signs such` says of all signs of an
operation, whatever state it is run on and whether it fails or not, that they are such, and
`op.FailsOnly such` says the same of its failures.
-/

set_option autoImplicit false

namespace StagedColumns.Operation

variable {σ ω τ α β : Type}

theorem bind_of_ok {op : Operation σ ω α} {state later : ω} {value : α} {trace : List σ}
    (hop : op state = ⟨.ok value, later, trace⟩) (next : α → Operation σ ω β) :
    (op >>= next) state =
      ⟨(next value later).result, (next value later).state,
        trace ++ (next value later).trace⟩ := by
  change op.andThen next state = _
  unfold andThen
  rw [hop]

theorem bind_of_error {op : Operation σ ω α} {state later : ω} {failure : Failure} {trace : List σ}
    (hop : op state = ⟨.error failure, later, trace⟩) (next : α → Operation σ ω β) :
    (op >>= next) state = ⟨.error failure, later, trace⟩ := by
  change op.andThen next state = _
  unfold andThen
  rw [hop]

/-- Run on a state, the operation gives a value and leaves another state. -/
def Gives (op : Operation σ ω α) (state : ω) (value : α) (later : ω) : Prop :=
  ∃ trace, op state = ⟨.ok value, later, trace⟩

theorem gives_of_result {op : Operation σ ω α} {state : ω} {value : α}
    (h : (op state).result = .ok value) : op.Gives state value (op state).state := by
  refine ⟨(op state).trace, ?_⟩
  rw [← h]

theorem Gives.pure (value : α) (state : ω) :
    (Pure.pure value : Operation σ ω α).Gives state value state :=
  ⟨[], rfl⟩

theorem Gives.ofExcept {computed : Except Failure α} {value : α} (h : computed = .ok value)
    (state : ω) : (ofExcept computed : Operation σ ω α).Gives state value state := by
  subst h
  exact ⟨[], rfl⟩

theorem Gives.of_ofExcept {computed : Except Failure α} {value : α} {state later : ω}
    (h : (Operation.ofExcept computed : Operation σ ω α).Gives state value later) :
    computed = .ok value ∧ later = state := by
  obtain ⟨trace, h⟩ := h
  cases computed with
  | error failure => cases h
  | ok given =>
    cases h
    exact ⟨rfl, rfl⟩

theorem Gives.bind {op : Operation σ ω α} {next : α → Operation σ ω β} {state middle later : ω}
    {value : α} {result : β} (hop : op.Gives state value middle)
    (hnext : (next value).Gives middle result later) :
    (op >>= next).Gives state result later := by
  obtain ⟨trace, hop⟩ := hop
  obtain ⟨more, hnext⟩ := hnext
  exact ⟨trace ++ more, by rw [bind_of_ok hop, hnext]⟩

/-- A sequence that gives a value comes from a first operation that does. -/
theorem Gives.of_bind {op : Operation σ ω α} {next : α → Operation σ ω β} {state later : ω}
    {result : β} (h : (op >>= next).Gives state result later) :
    ∃ value middle, op.Gives state value middle ∧ (next value).Gives middle result later := by
  obtain ⟨trace, h⟩ := h
  rcases hout : op state with ⟨first, middle, signs⟩
  cases first with
  | error failure =>
    rw [bind_of_error hout] at h
    cases h
  | ok value =>
    rw [bind_of_ok hout] at h
    rcases hnext : next value middle with ⟨second, final, more⟩
    rw [hnext] at h
    cases h
    exact ⟨value, middle, ⟨signs, hout⟩, ⟨more, hnext⟩⟩

theorem Gives.sign (s : σ) (state : ω) : (sign s : Operation σ ω Unit).Gives state () state :=
  ⟨[s], rfl⟩

theorem Gives.orElseWith {op : Operation σ ω α} {state later : ω} {value : α}
    (hop : op.Gives state value later) (f : Failure → Operation σ ω α) :
    (orElseWith f op).Gives state value later := by
  obtain ⟨trace, hop⟩ := hop
  refine ⟨trace, ?_⟩
  unfold Operation.orElseWith
  rw [hop]

/-- An operation gives one value and leaves one state. -/
theorem Gives.unique {op : Operation σ ω α} {state later other : ω} {value more : α}
    (h : op.Gives state value later) (hother : op.Gives state more other) :
    value = more ∧ later = other := by
  obtain ⟨trace, h⟩ := h
  obtain ⟨signs, hother⟩ := hother
  rw [h] at hother
  cases hother
  exact ⟨rfl, rfl⟩

/-! ### Signs -/

/-- Whatever the state, all signs that the operation gives are such. -/
def Signs (op : Operation σ ω α) (such : σ → Prop) : Prop :=
  ∀ state, ∀ s ∈ (op state).trace, such s

variable {such : σ → Prop}

theorem Signs.mono {also : σ → Prop} {op : Operation σ ω α} (h : op.Signs such)
    (halso : ∀ s, such s → also s) : op.Signs also :=
  fun state s hs ↦ halso s (h state s hs)

theorem Signs.pure (value : α) : (Pure.pure value : Operation σ ω α).Signs such :=
  fun _ ↦ nofun

theorem Signs.fail (failure : Failure) : (fail failure : Operation σ ω α).Signs such :=
  fun _ ↦ nofun

theorem Signs.ofExcept (computed : Except Failure α) :
    (ofExcept computed : Operation σ ω α).Signs such := by
  cases computed with
  | error failure => exact .fail failure
  | ok value => exact .pure value

theorem Signs.sign {s : σ} (h : such s) : (sign s : Operation σ ω Unit).Signs such :=
  fun _ _ hs ↦ List.mem_singleton.mp hs ▸ h

theorem Signs.bind {op : Operation σ ω α} {next : α → Operation σ ω β} (hop : op.Signs such)
    (hnext : ∀ value, (next value).Signs such) : (op >>= next).Signs such := by
  intro state s hs
  rcases hout : op state with ⟨result, later, trace⟩
  have hfirst : ∀ t ∈ trace, such t := by
    have h := hop state
    rwa [hout] at h
  cases result with
  | error failure =>
    rw [bind_of_error hout] at hs
    exact hfirst s hs
  | ok value =>
    rw [bind_of_ok hout] at hs
    exact (List.mem_append.mp hs).elim (hfirst s) (hnext value later s)

/-! ### Failures -/

/-- Whatever the state, all failures of the operation are such. -/
def FailsOnly (op : Operation σ ω α) (may : Failure → Prop) : Prop :=
  ∀ state failure, (op state).result = .error failure → may failure

variable {may : Failure → Prop}

theorem FailsOnly.pure (value : α) : (Pure.pure value : Operation σ ω α).FailsOnly may :=
  fun _ _ ↦ nofun

theorem FailsOnly.fail {failure : Failure} (h : may failure) :
    (fail failure : Operation σ ω α).FailsOnly may := by
  intro state other hfailed
  cases hfailed
  exact h

theorem FailsOnly.sign (s : σ) : (sign s : Operation σ ω Unit).FailsOnly may :=
  fun _ _ ↦ nofun

theorem FailsOnly.bind {op : Operation σ ω α} {next : α → Operation σ ω β}
    (hop : op.FailsOnly may) (hnext : ∀ value, (next value).FailsOnly may) :
    (op >>= next).FailsOnly may := by
  intro state failure hfailed
  rcases hout : op state with ⟨result, later, trace⟩
  cases result with
  | error first =>
    rw [bind_of_error hout] at hfailed
    cases hfailed
    exact hop state failure (by rw [hout])
  | ok value =>
    rw [bind_of_ok hout] at hfailed
    exact hnext value later failure hfailed

end StagedColumns.Operation
