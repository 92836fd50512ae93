import StagedColumns.Proofs.Planner.Calls
import StagedColumns.Proofs.Planner.MergedReadings
import StagedColumns.Proofs.Planner.UserDomains
import StagedColumns.Proofs.Planner.Write

/-!
# Dealings with a planner

In the course of dealings a planner is asked things on any handles, and writes that it left pending
are finished at any later time, once, repeatedly or never (`Planner.dealings`). What each step calls
is fixed by the step alone: the rosters asked are those of the handle's domain, and a write that is
finished executes at most one statement, on the connection of the handle that the write was asked
for with, whatever was done on other handles meanwhile. Nothing else is executed, and nothing is
ever made to last or undone. The domains of the users do not matter to the dealings at all.
-/

set_option autoImplicit false

namespace StagedColumns

variable {ω : Type}

/-! ### Courses of dealings -/

/-- A step of dealings with a planner. -/
inductive Step (ω : Type)
  /-- Something happens, such as a request. -/
  | ask (h : Happening ω)
  /-- The write that the step at the place left pending is finished. -/
  | finish (place : Nat) (mainKey extras : Datum)

/-- What a step gives. -/
inductive Reply
  | answer (a : Option Plan)
  | completion (c : Completion)
  /-- No write was left pending at the place. -/
  | nothingPending

/-- The session, and what came of each step so far. -/
structure Dealings (ω : Type) where
  session : Session ω
  outcomes : List (Outcome Signal (Session ω) Reply)

/-- The write that is left pending, if the outcome is that of a linked write. -/
def Outcome.pending? (outcome : Outcome Signal (Session ω) Reply) : Option PendingWrite :=
  match outcome.result with
  | .ok (.answer (some (.linked _ pending))) => some pending
  | _ => none

namespace Planner

/-- Takes a step after those of which the outcomes are given. -/
def deal (p : Planner) (storage : Storage ω) (outcomes : List (Outcome Signal (Session ω) Reply)) :
    Step ω → Operation Signal (Session ω) Reply
  | .ask h => do return .answer (← p.meet storage h)
  | .finish place mainKey extras =>
    match outcomes[place]?.bind Outcome.pending? with
    | some pending => do
      return .completion (← Session.onOutside (pending.finish storage mainKey extras))
    | none => pure .nothingPending

/-- The dealings with one more step. -/
def dealOn (p : Planner) (storage : Storage ω) (d : Dealings ω) (step : Step ω) : Dealings ω :=
  let outcome := p.deal storage d.outcomes step d.session
  ⟨outcome.state, d.outcomes ++ [outcome]⟩

/-- The dealings that consist of the steps. -/
def dealings (p : Planner) (storage : Storage ω) (outside : ω) (steps : List (Step ω)) :
    Dealings ω :=
  steps.foldl (p.dealOn storage) ⟨.start outside, []⟩

end Planner

/-- Each outcome is that of its step, taken in some session after the steps before it. -/
structure Dealings.Follow (d : Dealings ω) (p : Planner) (storage : Storage ω)
    (steps : List (Step ω)) : Prop where
  length : d.outcomes.length = steps.length
  outcome {i : Nat} {step : Step ω} {outcome : Outcome Signal (Session ω) Reply} :
    steps[i]? = some step → d.outcomes[i]? = some outcome →
      ∃ s, outcome = p.deal storage (d.outcomes.take i) step s

theorem Dealings.Follow.dealOn {d : Dealings ω} {p : Planner} {storage : Storage ω}
    {steps : List (Step ω)} (h : d.Follow p storage steps) (step : Step ω) :
    (p.dealOn storage d step).Follow p storage (steps ++ [step]) where
  length := by simp [Planner.dealOn, h.length]
  outcome {i other outcome} hstep houtcome := by
    have hi : i < (steps ++ [step]).length := (List.getElem?_eq_some_iff.mp hstep).1
    rw [List.length_append, List.length_singleton] at hi
    simp only [Planner.dealOn] at houtcome ⊢
    by_cases hlast : i < steps.length
    · rw [List.getElem?_append_left hlast] at hstep
      rw [List.getElem?_append_left (h.length ▸ hlast)] at houtcome
      obtain ⟨s, hs⟩ := h.outcome hstep houtcome
      rw [List.take_append_of_le_length (Nat.le_of_lt (h.length ▸ hlast))]
      exact ⟨s, hs⟩
    · obtain rfl : i = steps.length := by omega
      rw [List.getElem?_concat_length] at hstep
      rw [← h.length, List.getElem?_concat_length] at houtcome
      cases hstep
      cases houtcome
      rw [← h.length, List.take_left]
      exact ⟨d.session, rfl⟩

theorem Session.of_gives_onOutside {α : Type} {op : Operation Signal ω α} {s later : Session ω}
    {value : α} (h : (Session.onOutside op : Operation Signal (Session ω) α).Gives s value later) :
    op.Gives s.outside value later.outside := by
  obtain ⟨trace, h⟩ := h
  rcases hout : op s.outside with ⟨result, outside, signs⟩
  rw [onOutside, Operation.onPart, hout] at h
  cases h
  exact ⟨_, hout⟩

namespace Planner

variable {p : Planner} {storage : Storage ω} {s later : Session ω} {row : Row}
  {pending : PendingWrite}

theorem not_gives_refuseWrite {α : Type} {handle : Handle} {key : String} {linked : Bool}
    {value : Datum} {state next : ω} {result : α} :
    ¬(p.refuseWrite handle key linked value : Operation Signal ω α).Gives state result next := by
  have hrefused {state : ω} :
      ¬(p.refuseValue handle value : Operation Signal ω α).Gives state result next := by
    rintro ⟨trace, hgiven⟩
    unfold refuseValue at hgiven
    split at hgiven <;> cases hgiven
  intro h
  cases linked with
  | true =>
    rw [refuseWrite_linked] at h
    obtain ⟨field, _, -, hpassing⟩ := h.of_bind
    obtain ⟨_, _, -, hrest⟩ := hpassing.of_bind
    exact hrefused hrest
  | false =>
    rw [refuseWrite_direct] at h
    obtain ⟨field, _, -, hrest⟩ := h.of_bind
    by_cases htable : field.tempTable.isSome = true
    · rw [if_pos htable] at hrest
      obtain ⟨trace, hfailed⟩ := hrest
      cases hfailed
    · rw [if_neg htable] at hrest
      exact hrefused hrest

/-- Only a linked write leaves a write pending. -/
theorem of_gives_answer_linked {request : Request}
    (h : (p.answer storage request).Gives s (.linked row pending) later) :
    ∃ handle key user, request = .writeLinked handle key user ∧
      (p.writeLinked storage handle key user).Gives s.outside (row, pending) later.outside := by
  cases request with
  | read key =>
    obtain ⟨r, middle, -, hgiven⟩ := h.of_bind
    cases (hgiven.unique (.pure _ _)).1
  | write handle key user =>
    obtain ⟨values, middle, -, hgiven⟩ := h.of_bind
    cases (hgiven.unique (.pure _ _)).1
  | writeLinked handle key user =>
    obtain ⟨⟨values, left⟩, middle, hwritten, hgiven⟩ := h.of_bind
    obtain ⟨heq, rfl⟩ := hgiven.unique (.pure _ _)
    cases heq
    exact ⟨handle, key, user, rfl, Session.of_gives_onOutside hwritten⟩
  | search handle key among includeIds =>
    obtain ⟨found, middle, -, hgiven⟩ := h.of_bind
    cases (hgiven.unique (.pure _ _)).1

theorem of_gives_meet_linked {h : Happening ω}
    (hgives : (p.meet storage h).Gives s (some (.linked row pending)) later) :
    ∃ handle key user, h.handle? = some handle ∧ h.key? = some key ∧ h.linked? = some true ∧
      (p.writeLinked storage handle key user).Gives s.outside (row, pending) later.outside := by
  cases h with
  | asked request =>
    obtain ⟨plan, middle, hanswer, hgiven⟩ := hgives.of_bind
    obtain ⟨heq, rfl⟩ := hgiven.unique (.pure _ _)
    cases heq
    obtain ⟨handle, key, user, rfl, hwritten⟩ := of_gives_answer_linked hanswer
    exact ⟨handle, key, user, rfl, rfl, rfl, hwritten⟩
  | askedToWrite handle key linked value =>
    obtain ⟨plan, middle, hanswer, hgiven⟩ := hgives.of_bind
    obtain ⟨heq, rfl⟩ := hgiven.unique (.pure _ _)
    cases heq
    unfold answerWrite at hanswer
    cases huser : User.ofDatum? value with
    | none =>
      rw [huser] at hanswer
      exact absurd (Session.of_gives_onOutside hanswer) not_gives_refuseWrite
    | some given =>
      rw [huser] at hanswer
      cases linked with
      | false =>
        obtain ⟨_, _, _, hother, -⟩ := of_gives_answer_linked hanswer
        cases hother
      | true =>
        obtain ⟨_, _, _, hrequest, hwritten⟩ := of_gives_answer_linked hanswer
        cases hrequest
        exact ⟨handle, key, given, rfl, rfl, rfl, hwritten⟩
  | changed f =>
    obtain ⟨_, middle, -, hgiven⟩ := hgives.of_bind
    cases (hgiven.unique (.pure _ _)).1

end Planner

/-! ### What a course of dealings calls -/

/-- The users of the step bear no domains. -/
def Step.withoutDomains : Step ω → Step ω
  | .ask h => .ask h.withoutDomains
  | .finish place mainKey extras => .finish place mainKey extras

/-- With the handle, a linked write of the key is asked for, and the field of the key admits it. -/
structure Happening.AsksLinked (h : Happening ω) (p : Planner) (handle : Handle) (key : String)
    (field : UserField) : Prop where
  linked_eq : h.linked? = some true
  handle_eq : h.handle? = some handle
  key_eq : h.key? = some key
  admits : p.table.Admits key field

/-- What a step after others calls. -/
inductive Step.Called (p : Planner) (before : List (Step ω)) :
    Step ω → Outcome Signal (Session ω) Reply → Prop
  /-- What happens makes the calls that it needs. -/
  | asked {h : Happening ω} {out : Outcome Signal (Session ω) Reply} :
      out.Makes (h.calls p.stage) → Called p before (.ask h) out
  /-- Nothing is called where no row is written. -/
  | idle {place : Nat} {mainKey extras : Datum} {out : Outcome Signal (Session ω) Reply} :
      out.Makes [] → (∀ c, out.result = .ok (.completion c) → c.performed = false) →
      Called p before (.finish place mainKey extras) out
  /-- A row of a temp table is written with the handle that the write was asked for with. -/
  | stored {place : Nat} {mainKey extras : Datum} {out : Outcome Signal (Session ω) Reply}
      {h : Happening ω} {handle : Handle} {key : String} {field : UserField} {t : TempTable}
      {row : Row} :
      before[place]? = some (.ask h) → h.AsksLinked p handle key field →
      field.tempTable = some t → p.stage.writesNew = true → out.Makes [storeCall handle t row] →
      (∀ reply, out.result = .ok reply → reply = .completion ⟨true, some t.name, row⟩) →
      Called p before (.finish place mainKey extras) out

namespace Planner

variable {p : Planner} {storage : Storage ω}

/-- A write that is pending to store something is that of a field with a temp table, with the handle
that the write was asked for with. -/
theorem eq_of_duty_pendingWrite {stage : Stage} {handle other : Handle} {key : String}
    {field : UserField} {actor id : Int} {t : TempTable}
    (h : (pendingWrite stage handle key field actor).duty = .store t id other) :
    field.tempTable = some t ∧ stage.writesNew = true ∧ other = handle := by
  unfold pendingWrite at h
  cases htable : field.tempTable with
  | none =>
    rw [htable] at h
    cases h
  | some table =>
    simp only [htable] at h
    by_cases hnew : stage.writesNew = true
    · rw [if_pos hnew] at h
      cases h
      exact ⟨rfl, hnew, rfl⟩
    · rw [if_neg hnew] at h
      cases h

/-- A step that leaves a write pending asks for a linked write, and gets it. -/
theorem of_pending?_deal {outcomes : List (Outcome Signal (Session ω) Reply)} {step : Step ω}
    {s : Session ω} {pending : PendingWrite}
    (h : (p.deal storage outcomes step s).pending? = some pending) :
    ∃ happening row later, step = .ask happening ∧
      (p.meet storage happening).Gives s (some (.linked row pending)) later := by
  have hresult : ∃ row, (p.deal storage outcomes step s).result =
      .ok (.answer (some (.linked row pending))) := by
    unfold Outcome.pending? at h
    split at h
    · rename_i row left hanswer
      cases h
      exact ⟨row, hanswer⟩
    · cases h
  obtain ⟨row, hresult⟩ := hresult
  have hgives := Operation.gives_of_result hresult
  cases step with
  | ask happening =>
    obtain ⟨answer, middle, hmeet, hreply⟩ := hgives.of_bind
    obtain ⟨heq, rfl⟩ := hreply.unique (.pure _ _)
    cases heq
    exact ⟨happening, row, _, rfl, hmeet⟩
  | finish place mainKey extras =>
    -- what finishing a write gives is no answer
    simp only [deal] at hgives
    split at hgives
    · obtain ⟨_, _, -, hreply⟩ := hgives.of_bind
      cases (hreply.unique (.pure _ _)).1
    · cases (hgives.unique (.pure _ _)).1

/-- What came of finishing a write is what is replied. -/
theorem of_result_completion {op : Operation Signal ω Completion} {s : Session ω} {reply : Reply}
    (h : ((do return .completion (← Session.onOutside op) :
      Operation Signal (Session ω) Reply) s).result = .ok reply) :
    ∃ c later, op.Gives s.outside c later ∧ reply = .completion c := by
  obtain ⟨c, middle, hfinish, hreturn⟩ := (Operation.gives_of_result h).of_bind
  exact ⟨c, _, Session.of_gives_onOutside hfinish, (hreturn.unique (.pure _ _)).1⟩

end Planner

/-- A write that is left pending was asked for with a handle in an earlier step. -/
theorem Dealings.Follow.exists_asked {d : Dealings ω} {p : Planner} {storage : Storage ω}
    {steps : List (Step ω)} (h : d.Follow p storage steps) {i place : Nat} {pending : PendingWrite}
    (hleft : (d.outcomes.take i)[place]?.bind Outcome.pending? = some pending) :
    ∃ happening handle key field actor, (steps.take i)[place]? = some (.ask happening) ∧
      happening.AsksLinked p handle key field ∧
      pending = Planner.pendingWrite p.stage handle key field actor := by
  obtain ⟨earlier, hearlier, hpending⟩ := Option.bind_eq_some_iff.mp hleft
  obtain ⟨hplace, hearlier⟩ : place < i ∧ d.outcomes[place]? = some earlier := by
    rw [List.getElem?_take] at hearlier
    by_cases hplace : place < i
    · rw [if_pos hplace] at hearlier
      exact ⟨hplace, hearlier⟩
    · rw [if_neg hplace] at hearlier
      cases hearlier
  have hlength : place < steps.length := h.length ▸ (List.getElem?_eq_some_iff.mp hearlier).1
  have hasked := List.getElem?_eq_getElem hlength
  obtain ⟨s, rfl⟩ := h.outcome hasked hearlier
  obtain ⟨happening, row, later, hstep, hmeet⟩ := Planner.of_pending?_deal hpending
  obtain ⟨handle, key, user, hhandle, hkey, hlinked, hwritten⟩ := Planner.of_gives_meet_linked hmeet
  obtain ⟨field, actor, hadmits, -, -, -, rfl⟩ := Planner.of_gives_writeLinked hwritten
  refine ⟨happening, handle, key, field, actor, ?_, ⟨hlinked, hhandle, hkey, hadmits⟩, rfl⟩
  rw [List.getElem?_take_of_lt hplace, hasked, hstep]

/-- Each step of dealings makes the calls that are its own. -/
theorem Dealings.Follow.called {d : Dealings ω} {p : Planner} {storage : Storage ω}
    {steps : List (Step ω)} (h : d.Follow p storage steps) {i : Nat} {step : Step ω}
    {out : Outcome Signal (Session ω) Reply} (hstep : steps[i]? = some step)
    (hout : d.outcomes[i]? = some out) : step.Called p (steps.take i) out := by
  obtain ⟨s, rfl⟩ := h.outcome hstep hout
  cases step with
  | ask happening =>
    exact .asked ((p.calls_meet storage happening).before (fun _ ↦ .pure _) s)
  | finish place mainKey extras =>
    simp only [Planner.deal]
    cases hleft : (d.outcomes.take i)[place]?.bind Outcome.pending? with
    | none => exact .idle (Operation.Calls.pure _ s) nofun
    | some pending =>
      obtain ⟨happening, handle, key, field, actor, hasked, hasks, rfl⟩ := h.exists_asked hleft
      cases PendingWrite.finishes_finish _ storage mainKey extras with
      | idle hcalls hidle =>
        refine .idle ((Session.calls_onOutside hcalls).before (fun _ ↦ .pure _) s) fun c hc ↦ ?_
        obtain ⟨other, _, hfinish, heq⟩ := Planner.of_result_completion hc
        cases heq
        exact hidle hfinish
      | stored hduty hcalls hstored =>
        obtain ⟨htable, hnew, rfl⟩ := Planner.eq_of_duty_pendingWrite hduty
        refine .stored hasked hasks htable hnew
          ((Session.calls_onOutside hcalls).before (fun _ ↦ .pure _) s) fun reply hreply ↦ ?_
        obtain ⟨c, _, hfinish, rfl⟩ := Planner.of_result_completion hreply
        rw [hstored hfinish]

namespace Planner

variable {storage : Storage ω}

/-- Steps on two wikis. A user of some domain is written into the archive of the one and looked for
in the revisions of the other, and then the write is finished. -/
def twoWikis (domain : Datum) : List (Step Rehearsal) :=
  [.ask (.asked (.writeLinked ⟨"one", .sqlite, "one"⟩ "ar_user" ⟨7, "Ada", domain⟩)),
    .ask (.asked (.search ⟨"two", .sqlite, "two"⟩ "rev_user" (.user 7 "Ada" domain) true)),
    .finish 0 (.int 5) .null]

end Planner

end StagedColumns
