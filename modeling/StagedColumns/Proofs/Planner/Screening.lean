import StagedColumns.Planner.Session
import StagedColumns.Proofs.Field.Gate

/-!
# Screening

Operations that may be misused screen what they are asked for: they report a misuse that is the
case, and no other one, and by then they have called no collaborator and leave the state as it was
(`Operation.Screens`). What comes before a screening must be silent, what comes after it must not
report a misuse, and the gate of a field table screens its key before anything else is looked at.
-/

set_option autoImplicit false

namespace StagedColumns

variable {ω α β : Type}

/-- The failure reports a misuse. -/
def Failure.isMisuse : Failure → Bool
  | .unknownKey .. | .fieldRemoved .. | .wrongWrite .. | .invalidUsers .. => true
  | _ => false

namespace Operation

/-- Of all misuses the operation reports those that are the case, and then it has called no
collaborator and leaves the state as it was. -/
structure Screens (op : Operation Signal ω α) (wrong : Failure → Prop) : Prop where
  refused {failure : Failure} : wrong failure → ∀ state, ∃ signs,
    op state = ⟨.error failure, state, signs⟩ ∧ signs.filterMap Signal.call? = []
  wrong {failure : Failure} {state : ω} :
    (op state).result = .error failure → failure.isMisuse = true → wrong failure

/-- The operation gives the value, calls no collaborator and leaves the state as it was. -/
def Silent (op : Operation Signal ω α) (value : α) : Prop :=
  ∀ state, ∃ signs, op state = ⟨.ok value, state, signs⟩ ∧ signs.filterMap Signal.call? = []

variable {op : Operation Signal ω α} {next : α → Operation Signal ω β} {wrong : Failure → Prop}

theorem Silent.pure (value : α) : (Pure.pure value : Operation Signal ω α).Silent value :=
  fun _ ↦ ⟨[], rfl, rfl⟩

theorem Screens.congr {also : Failure → Prop} (h : op.Screens wrong)
    (halso : ∀ failure, wrong failure ↔ also failure) : op.Screens also := by
  obtain rfl : wrong = also := funext fun failure ↦ propext (halso failure)
  exact h

theorem screens_fail (failure : Failure) :
    (fail failure : Operation Signal ω α).Screens (· = failure) where
  refused hfailure _ := hfailure ▸ ⟨[], rfl, rfl⟩
  wrong hfailed _ := (Except.error.inj hfailed).symm

theorem screens_ofExcept (computed : Except Failure α) :
    (ofExcept computed : Operation Signal ω α).Screens (computed = .error ·) where
  refused hfailure _ := by
    rw [hfailure]
    exact ⟨[], rfl, rfl⟩
  wrong {failure state} hfailed _ := by
    cases computed with
    | error other => exact congrArg _ (Except.error.inj hfailed)
    | ok value => cases hfailed

/-- Once there is no misuse left to report, anything may follow. -/
theorem Screens.bind (hop : op.Screens wrong)
    (hnext : ∀ value, (next value).FailsOnly (·.isMisuse = false)) :
    (op >>= next).Screens wrong where
  refused hfailure state := by
    obtain ⟨signs, hrefused, hcalls⟩ := hop.refused hfailure state
    exact ⟨signs, bind_of_error hrefused next, hcalls⟩
  wrong {failure state} hfailed hmisuse := by
    rcases hout : op state with ⟨result, later, trace⟩
    cases result with
    | error first =>
      rw [bind_of_error hout] at hfailed
      cases hfailed
      exact hop.wrong (by rw [hout]) hmisuse
    | ok value =>
      rw [bind_of_ok hout] at hfailed
      exact absurd hmisuse (by simp [hnext value later failure hfailed])

theorem Silent.screens_bind {value : α} (hop : op.Silent value)
    (hnext : (next value).Screens wrong) : (op >>= next).Screens wrong where
  refused hfailure state := by
    obtain ⟨signs, hgiven, hcalls⟩ := hop state
    obtain ⟨more, hrefused, hmore⟩ := hnext.refused hfailure state
    refine ⟨signs ++ more, by rw [bind_of_ok hgiven, hrefused], ?_⟩
    rw [List.filterMap_append, hcalls, hmore, List.append_nil]
  wrong {failure state} hfailed hmisuse := by
    obtain ⟨signs, hgiven, -⟩ := hop state
    rw [bind_of_ok hgiven] at hfailed
    exact hnext.wrong hfailed hmisuse

theorem FailsOnly.screens (h : op.FailsOnly (·.isMisuse = false)) : op.Screens fun _ ↦ False where
  refused := nofun
  wrong {failure state} hfailed hmisuse := by
    simp [h state failure hfailed] at hmisuse

theorem Silent.screens {value : α} (hop : op.Silent value) : op.Screens fun _ ↦ False where
  refused := nofun
  wrong {failure state} hfailed _ := by
    obtain ⟨signs, hgiven, -⟩ := hop state
    rw [hgiven] at hfailed
    cases hfailed

end Operation

theorem Session.screens_onOutside {op : Operation Signal ω α} {wrong : Failure → Prop}
    (h : op.Screens wrong) :
    (Session.onOutside op : Operation Signal (Session ω) α).Screens wrong where
  refused hfailure s := by
    obtain ⟨signs, hrefused, hcalls⟩ := h.refused hfailure s.outside
    refine ⟨signs, ?_, hcalls⟩
    rw [onOutside, Operation.onPart, hrefused]
  wrong hfailed hmisuse := h.wrong hfailed hmisuse

theorem Session.screens_onReadings {op : Operation Signal (Memo Reading) α}
    {wrong : Failure → Prop} (h : op.Screens wrong) :
    (Session.onReadings op : Operation Signal (Session ω) α).Screens wrong where
  refused hfailure s := by
    obtain ⟨signs, hrefused, hcalls⟩ := h.refused hfailure s.readings
    refine ⟨signs, ?_, hcalls⟩
    rw [onReadings, Operation.onPart, hrefused]
  wrong hfailed hmisuse := h.wrong hfailed hmisuse

/-! ### The gate -/

namespace FieldTable

variable {t : FieldTable} {key : String}

theorem silent_warn (t : FieldTable) (what version component key : String) :
    (t.warn what version component key : Operation Signal ω Unit).Silent () :=
  fun _ ↦ ⟨_, rfl, rfl⟩

theorem Admits.silent_pass {field : UserField} (h : t.Admits key field) :
    (t.pass key : Operation Signal ω UserField).Silent field := by
  intro state
  refine ⟨_, h.pass_eq state, ?_⟩
  unfold gateSigns
  cases field.deprecatedIn <;> rfl

/-- What is wrong with a key, or else with what is asked for its field. -/
def Wrong (t : FieldTable) (key : String) (wrong : UserField → Failure → Prop)
    (failure : Failure) : Prop :=
  t.Refused key failure ∨ ∃ field, t.Admits key field ∧ wrong field failure

theorem Refused.not_admits {failure : Failure} (h : t.Refused key failure) (field : UserField) :
    ¬t.Admits key field := by
  intro hadmits
  cases (h.pass_eq ()).symm.trans (hadmits.pass_eq ())

/-- The gate comes first, and what is wrong after it counts only for a key that passes. -/
theorem screens_gate {next : UserField → Operation Signal ω α} {wrong : UserField → Failure → Prop}
    (hnext : ∀ field, t.Admits key field → (next field).Screens (wrong field)) :
    (t.pass key >>= next).Screens (t.Wrong key wrong) := by
  rcases t.refused_or_admits key with ⟨failure, hrefused⟩ | ⟨field, hadmits⟩
  · constructor
    · rintro other (hother | ⟨field, hadmits, -⟩) state
      · exact ⟨[], Operation.bind_of_error (hother.pass_eq state) next, rfl⟩
      · exact absurd hadmits (hrefused.not_admits field)
    · intro other state hfailed _
      rw [Operation.bind_of_error (hrefused.pass_eq state)] at hfailed
      cases hfailed
      exact .inl hrefused
  · refine (hadmits.silent_pass.screens_bind (hnext field hadmits)).congr fun failure ↦ ?_
    constructor
    · intro hwrong
      exact .inr ⟨field, hadmits, hwrong⟩
    · rintro (hrefused | ⟨other, hother, hwrong⟩)
      · exact absurd hadmits (hrefused.not_admits field)
      · exact hadmits.unique hother ▸ hwrong

end FieldTable

end StagedColumns
