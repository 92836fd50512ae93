import Mathlib.Data.List.Basic
import StagedColumns.Planner.Session
import StagedColumns.Proofs.Planner.KeptReadings
import StagedColumns.Proofs.Planner.Quiet

/-!
# The past of a planner in use

A planner in use is asked one thing after the other, and the world outside changes meanwhile, on its
own or by what the planner asks of it. `Planner.history` follows any such course, in which requests
may fail. What happens is either the reading of a key, which works on the kept readings alone, or it
passes them by (`meet_cases`). So the kept readings are at all times those of the keys that were
read, in order, and each of them was made once (`Past.Kept`), and no answer depends on them.
-/

set_option autoImplicit false

namespace StagedColumns

variable {ω α β : Type}

/-! ### What happens -/

/-- What happens while a planner is in use. -/
inductive Happening (ω : Type)
  /-- The planner is asked something. -/
  | asked (request : Request)
  /-- The planner is asked to write for a value, which should be a user. -/
  | askedToWrite (handle : Handle) (key : String) (linked : Bool) (user : Datum)
  /-- The world outside changes. -/
  | changed (f : ω → ω)

/-- The key that something is asked about. -/
def Happening.key? : Happening ω → Option String
  | .asked request => some request.key
  | .askedToWrite _ key _ _ => some key
  | .changed _ => none

/-- Whether a write is asked for, and if so, whether it is to be followed by a temp table's. -/
def Happening.linked? : Happening ω → Option Bool
  | .asked (.write ..) => some false
  | .asked (.writeLinked ..) => some true
  | .askedToWrite _ _ linked _ => some linked
  | _ => none

/-- The users that something is asked about. -/
def Happening.among? : Happening ω → Option Datum
  | .asked (.search _ _ among _) => some among
  | _ => none

/-- The handle that something is asked with. -/
def Happening.handle? : Happening ω → Option Handle
  | .asked (.write handle ..) | .asked (.writeLinked handle ..) | .asked (.search handle ..)
  | .askedToWrite handle .. => some handle
  | _ => none

/-- What comes of a happening: an answer, if something was asked. -/
def Planner.meet (p : Planner) (storage : Storage ω) :
    Happening ω → Operation Signal (Session ω) (Option Plan)
  | .asked request => do return some (← p.answer storage request)
  | .askedToWrite handle key linked user => do
    return some (← p.answerWrite storage handle key linked user)
  | .changed f => do
    Session.onOutside (.change f)
    return none

/-- Everything so far: the session, what happened and what came of it, and all signs. -/
structure Past (ω : Type) where
  session : Session ω
  answers : List (Happening ω × Except Failure (Option Plan))
  trace : List Signal

/-- The past with one more happening. -/
def Planner.after (p : Planner) (storage : Storage ω) (past : Past ω) (h : Happening ω) : Past ω :=
  let outcome := p.meet storage h past.session
  ⟨outcome.state, past.answers ++ [(h, outcome.result)], past.trace ++ outcome.trace⟩

/-- The past of a planner since its start. -/
def Planner.history (p : Planner) (storage : Storage ω) (outside : ω)
    (happenings : List (Happening ω)) : Past ω :=
  happenings.foldl (p.after storage) ⟨.start outside, [], []⟩

/-- The key that was read, if the answer is its reading. -/
def keyRead? : Happening ω × Except Failure (Option Plan) → Option String
  | (.asked (.read key), .ok _) => some key
  | _ => none

/-- The keys whose readings were given, in order. -/
def Past.keysRead (past : Past ω) : List String :=
  past.answers.filterMap keyRead?

/-- The operation works on the world outside, and makes no reading. -/
def Session.PassesBy (op : Operation Signal (Session ω) α) : Prop :=
  ∃ inner : Operation Signal ω α, inner.Quiet ∧ op = onOutside inner

namespace Session

theorem onOutside_bind (op : Operation Signal ω α) (next : α → Operation Signal ω β) :
    (onOutside op >>= fun value ↦ onOutside (next value)) =
      (onOutside (op >>= next) : Operation Signal (Session ω) β) := by
  funext s
  rcases hout : op s.outside with ⟨result, later, trace⟩
  have hlifted : (onOutside op : Operation Signal (Session ω) α) s =
      ⟨result, ⟨s.readings, later⟩, trace⟩ := by
    rw [onOutside, Operation.onPart, hout]
  cases result with
  | error failure =>
    rw [Operation.bind_of_error hlifted, onOutside, Operation.onPart, Operation.bind_of_error hout]
  | ok value =>
    rw [Operation.bind_of_ok hlifted]
    simp only [onOutside, Operation.onPart, Operation.bind_of_ok hout]

theorem PassesBy.onOutside {op : Operation Signal ω α} (h : op.Quiet) :
    PassesBy (Session.onOutside op) :=
  ⟨op, h, rfl⟩

theorem PassesBy.pure (value : α) : PassesBy (Pure.pure value : Operation Signal (Session ω) α) :=
  ⟨Pure.pure value, .pure value, rfl⟩

theorem PassesBy.bind {op : Operation Signal (Session ω) α}
    {next : α → Operation Signal (Session ω) β} (hop : PassesBy op)
    (hnext : ∀ value, PassesBy (next value)) : PassesBy (op >>= next) := by
  obtain ⟨inner, hquiet, rfl⟩ := hop
  choose innerNext hnextQuiet hnextEq using hnext
  obtain rfl : next = fun value ↦ Session.onOutside (innerNext value) := funext hnextEq
  exact ⟨inner >>= innerNext, .bind hquiet hnextQuiet, onOutside_bind inner innerNext⟩

end Session

namespace Planner

theorem passesBy_answer (p : Planner) (storage : Storage ω) {request : Request}
    (hrequest : ∀ key, request ≠ .read key) : Session.PassesBy (p.answer storage request) := by
  cases request with
  | read key => exact absurd rfl (hrequest key)
  | write handle key user =>
    exact .bind (.onOutside (p.enters_write storage handle key user).quiet) fun _ ↦ .pure _
  | writeLinked handle key user =>
    exact .bind (.onOutside (p.enters_writeLinked storage handle key user).quiet) fun _ ↦ .pure _
  | search handle key users includeIds =>
    exact .bind (.onOutside (p.enters_search storage handle key users includeIds).quiet)
      fun _ ↦ .pure _

theorem passesBy_answerWrite (p : Planner) (storage : Storage ω) (handle : Handle) (key : String)
    (linked : Bool) (user : Datum) :
    Session.PassesBy (p.answerWrite storage handle key linked user) := by
  unfold answerWrite
  split
  · exact p.passesBy_answer storage nofun
  · exact p.passesBy_answer storage nofun
  · exact .onOutside (p.enters_refuseWrite handle key _ user).quiet

/-- What happens is the reading of a key, or else it passes by the kept readings. -/
theorem meet_cases (p : Planner) (storage : Storage ω) (h : Happening ω) :
    (∃ key, h = .asked (.read key)) ∨
      (∀ answer, keyRead? (h, answer) = none) ∧ Session.PassesBy (p.meet storage h) := by
  cases h with
  | asked request =>
    by_cases hread : ∃ key, request = .read key
    · obtain ⟨key, rfl⟩ := hread
      exact .inl ⟨key, rfl⟩
    · have hrequest := not_exists.mp hread
      refine .inr ⟨fun answer ↦ ?_, .bind (p.passesBy_answer storage hrequest) fun _ ↦ .pure _⟩
      cases request with
      | read key => exact absurd rfl (hrequest key)
      | _ => rfl
  | askedToWrite handle key linked user =>
    exact .inr ⟨fun _ ↦ rfl,
      .bind (p.passesBy_answerWrite storage handle key linked user) fun _ ↦ .pure _⟩
  | changed f => exact .inr ⟨fun _ ↦ rfl, .bind (.onOutside fun _ ↦ nofun) fun _ ↦ .pure _⟩

theorem meet_read (p : Planner) (storage : Storage ω) (key : String) (s : Session ω) :
    p.meet storage (.asked (.read key)) s =
      ⟨(p.read key s.readings).result.map fun r ↦ some (.reading r),
        ⟨(p.read key s.readings).state, s.outside⟩, (p.read key s.readings).trace⟩ := by
  rcases hout : p.read key s.readings with ⟨result, later, trace⟩
  have hlifted : (Session.onReadings (p.read key) : Operation Signal (Session ω) Reading) s =
      ⟨result, ⟨later, s.outside⟩, trace⟩ := by
    rw [Session.onReadings, Operation.onPart, hout]
  rw [meet, answer, bind_assoc]
  cases result with
  | error failure =>
    rw [Operation.bind_of_error hlifted]
    rfl
  | ok r =>
    rw [Operation.bind_of_ok hlifted, pure_bind]
    exact congrArg _ (List.append_nil trace)

end Planner

/-! ### What the past leaves -/

/-- The kept readings are those of the keys that were read, in order, of which each passes the gate
and was made once. -/
structure Past.Kept (p : Planner) (past : Past ω) : Prop where
  reading {key : String} {r : Reading} : past.session.readings.get? key = some r →
    ∃ field, p.table.Admits key field ∧ r = Planner.readingAt p.stage key field
  names : past.session.readings.kept.names = past.keysRead.eraseDups
  made : past.trace.filterMap Signal.madeKey? =
    past.keysRead.eraseDups.map fun key ↦ some (.text key)

theorem Past.Kept.keepsReadings {p : Planner} {past : Past ω} (h : past.Kept p) :
    p.KeepsReadings past.session.readings := by
  intro key r hr
  obtain ⟨field, hadmits, hr⟩ := h.reading hr
  exact ⟨field, hadmits.resolved, hr⟩

theorem Past.Kept.mem_keysRead_iff {p : Planner} {past : Past ω} (h : past.Kept p) (key : String) :
    key ∈ past.keysRead ↔ (past.session.readings.get? key).isSome := by
  rw [← List.mem_eraseDups, ← h.names, OrderedMap.mem_names_iff]
  rfl

theorem FieldTable.Admits.madeKey?_gateSigns {t : FieldTable} {key : String} {field : UserField}
    (h : t.Admits key field) : ∀ s ∈ t.gateSigns key field, s.madeKey? = none := by
  have hquiet := t.quiet_pass key ()
  rwa [h.pass_eq] at hquiet

theorem Planner.madeKey?_madeSign (p : Planner) (key : String) (r : Reading) :
    (p.madeSign key r).madeKey? = some (some (.text key)) :=
  rfl

theorem Past.keysRead_after (p : Planner) (storage : Storage ω) (past : Past ω) (h : Happening ω) :
    (p.after storage past h).keysRead =
      past.keysRead ++ (keyRead? (h, (p.meet storage h past.session).result)).toList := by
  rw [Past.keysRead, Planner.after, List.filterMap_append]
  rfl

theorem Past.kept_start (p : Planner) (outside : ω) :
    (⟨.start outside, [], []⟩ : Past ω).Kept p :=
  ⟨nofun, rfl, rfl⟩

/-- Nothing changes while no key is read for the first time and no reading is made. -/
theorem Past.Kept.stay {p : Planner} {past later : Past ω} (h : past.Kept p) (signs : List Signal)
    (hreadings : later.session.readings = past.session.readings)
    (hkeys : later.keysRead.eraseDups = past.keysRead.eraseDups)
    (htrace : later.trace = past.trace ++ signs) (hsigns : ∀ s ∈ signs, s.madeKey? = none) :
    later.Kept p where
  reading hr := h.reading (hreadings ▸ hr)
  names := by rw [hreadings, hkeys, h.names]
  made := by
    rw [htrace, hkeys, List.filterMap_append, List.filterMap_eq_nil_iff.mpr hsigns, h.made,
      List.append_nil]

/-- A key that is read for the first time has its reading made and kept. -/
theorem Past.Kept.add {p : Planner} {past later : Past ω} (h : past.Kept p) {key : String}
    {field : UserField} (hadmits : p.table.Admits key field)
    (hmissing : past.session.readings.get? key = none)
    (hreadings : later.session.readings =
      ⟨past.session.readings.kept.put key (Planner.readingAt p.stage key field)⟩)
    (hkeys : later.keysRead = past.keysRead ++ [key])
    (htrace : later.trace = past.trace ++ (p.table.gateSigns key field ++
      [p.madeSign key (Planner.readingAt p.stage key field)])) : later.Kept p := by
  have hfirst : later.keysRead.eraseDups = past.keysRead.eraseDups ++ [key] := by
    have hnew : key ∉ past.keysRead := by simp [h.mem_keysRead_iff, hmissing]
    rw [hkeys, eraseDups_concat, if_neg hnew]
  refine ⟨fun {other r} hr ↦ ?_, ?_, ?_⟩
  · rw [hreadings] at hr
    exact Memo.forall_get?_put (fun _ _ ↦ h.reading) ⟨field, hadmits, rfl⟩ other r hr
  · rw [hreadings, OrderedMap.names_put, h.names, eraseDups_append_left, hkeys]
  · rw [htrace, hfirst, List.filterMap_append, List.filterMap_append, h.made,
      List.filterMap_eq_nil_iff.mpr hadmits.madeKey?_gateSigns, List.map_append]
    rfl

theorem Past.kept_after {p : Planner} {past : Past ω} (h : past.Kept p) (storage : Storage ω)
    (next : Happening ω) : (p.after storage past next).Kept p := by
  have hkeys := Past.keysRead_after p storage past next
  rcases p.meet_cases storage next with ⟨key, rfl⟩ | ⟨hnone, inner, hquiet, hmeet⟩
  · have hreads := p.reads_read key h.keepsReadings
    have hmeet := p.meet_read storage key past.session
    generalize p.read key past.session.readings = out at hreads hmeet
    rw [hmeet] at hkeys
    cases hreads with
    | refused hrefused =>
      refine h.stay [] ?_ ?_ ?_ nofun
      · rw [Planner.after, hmeet]
      · rw [hkeys]
        exact congrArg _ (List.append_nil _)
      · rw [Planner.after, hmeet]
    | @kept field hadmits hkept =>
      refine h.stay (p.table.gateSigns key field) ?_ ?_ ?_ hadmits.madeKey?_gateSigns
      · rw [Planner.after, hmeet]
      · have hmem : key ∈ past.keysRead := by simp [h.mem_keysRead_iff, hkept]
        rw [hkeys]
        change (past.keysRead ++ [key]).eraseDups = _
        rw [eraseDups_concat, if_pos hmem, List.append_nil]
      · rw [Planner.after, hmeet]
    | made hadmits hmissing =>
      refine h.add hadmits hmissing ?_ hkeys ?_
      · rw [Planner.after, hmeet]
      · rw [Planner.after, hmeet]
  · have hstate : (p.after storage past next).session.readings = past.session.readings := by
      rw [Planner.after, hmeet]
      rfl
    rw [hnone, Option.toList_none, List.append_nil] at hkeys
    refine h.stay _ hstate (congrArg _ hkeys) rfl ?_
    rw [hmeet]
    exact hquiet past.session.outside

/-- However a planner was used, it keeps the readings of the keys that were read, and no other. -/
theorem Planner.kept_history (p : Planner) (storage : Storage ω) (outside : ω)
    (happenings : List (Happening ω)) : (p.history storage outside happenings).Kept p := by
  unfold history
  -- the happenings go on from any past in which the readings are so kept
  generalize hstart : (⟨.start outside, [], []⟩ : Past ω) = past
  have hpast : past.Kept p := hstart ▸ Past.kept_start p outside
  clear hstart
  induction happenings generalizing past with
  | nil => exact hpast
  | cons next rest ih => exact ih (p.after storage past next) (Past.kept_after hpast storage next)

/-! ### Answers -/

/-- Two outcomes differ at most in what the sessions keep and in the readings made on the way. -/
structure SameAnswer (now fresh : Outcome Signal (Session ω) α) : Prop where
  result : now.result = fresh.result
  outside : now.state.outside = fresh.state.outside
  calls : now.trace.filterMap Signal.call? = fresh.trace.filterMap Signal.call?
  deprecations : now.trace.filterMap Signal.deprecation? = fresh.trace.filterMap Signal.deprecation?
  signs : now.trace.filter (·.madeKey?.isNone) = fresh.trace.filter (·.madeKey?.isNone)

/-- Signs that are no events are not among those that a reading was made. -/
theorem filterMap_filter_madeKey? {f : Signal → Option α} (hf : ∀ e, f (.event e) = none)
    (signs : List Signal) :
    (signs.filter (·.madeKey?.isNone)).filterMap f = signs.filterMap f := by
  rw [List.filterMap_filter]
  refine List.filterMap_congr fun s _ ↦ ?_
  cases s with
  | event e => rw [hf, ite_self]
  | call c => rfl
  | deprecation text => rfl

theorem SameAnswer.of_signs {now fresh : Outcome Signal (Session ω) α}
    (hresult : now.result = fresh.result) (houtside : now.state.outside = fresh.state.outside)
    (hsigns : now.trace.filter (·.madeKey?.isNone) = fresh.trace.filter (·.madeKey?.isNone)) :
    SameAnswer now fresh where
  result := hresult
  outside := houtside
  calls := by
    rw [← filterMap_filter_madeKey? (fun _ ↦ rfl), hsigns, filterMap_filter_madeKey? fun _ ↦ rfl]
  deprecations := by
    rw [← filterMap_filter_madeKey? (fun _ ↦ rfl), hsigns, filterMap_filter_madeKey? fun _ ↦ rfl]
  signs := hsigns

/-- A reading is decided by the gate, whose signs come first and are followed at most by the sign
that the reading was made. -/
theorem Planner.Reads.eq_gate {p : Planner} {key : String} {m : Memo Reading}
    {out : Outcome Signal (Memo Reading) Reading} (h : p.Reads key m out) :
    out.result = (p.table.gate key).result.map (readingAt p.stage key) ∧
      ∃ rest, out.trace = (p.table.gate key).trace ++ rest ∧
        ∀ s ∈ rest, s.madeKey? = some (some (.text key)) := by
  cases h with
  | refused hrefused hgate =>
    rw [hgate]
    exact ⟨rfl, [], rfl, nofun⟩
  | kept hadmits =>
    rw [FieldTable.gate, hadmits.pass_eq]
    exact ⟨rfl, [], (List.append_nil _).symm, nofun⟩
  | made hadmits =>
    rw [FieldTable.gate, hadmits.pass_eq]
    exact ⟨rfl, _, rfl, fun s hs ↦ List.mem_singleton.mp hs ▸ p.madeKey?_madeSign key _⟩

theorem Planner.Reads.filter_trace {p : Planner} {key : String} {m : Memo Reading}
    {out : Outcome Signal (Memo Reading) Reading} (h : p.Reads key m out) :
    out.trace.filter (·.madeKey?.isNone) =
      (p.table.gate key).trace.filter (·.madeKey?.isNone) := by
  obtain ⟨-, rest, htrace, hrest⟩ := h.eq_gate
  have hmade : rest.filter (·.madeKey?.isNone) = [] :=
    List.filter_eq_nil_iff.mpr fun s hs ↦ by simp [hrest s hs]
  rw [htrace, List.filter_append, hmade, List.append_nil]

/-- What is kept makes no difference to an answer, as long as it is what would be made. -/
theorem Planner.sameAnswer_meet (p : Planner) (storage : Storage ω) (next : Happening ω)
    {s : Session ω} (hs : p.KeepsReadings s.readings) :
    SameAnswer (p.meet storage next s) (p.meet storage next (.start s.outside)) := by
  rcases p.meet_cases storage next with ⟨key, rfl⟩ | ⟨-, inner, -, hmeet⟩
  · have hnow := p.reads_read key hs
    have hfresh := p.reads_read key p.keepsReadings_empty
    rw [p.meet_read, p.meet_read]
    refine .of_signs ?_ rfl (hnow.filter_trace.trans hfresh.filter_trace.symm)
    exact congrArg (Except.map fun r ↦ some (Plan.reading r))
      (hnow.eq_gate.1.trans hfresh.eq_gate.1.symm)
  · rw [hmeet]
    exact ⟨rfl, rfl, rfl, rfl, rfl⟩

/-- However a planner was used, its next answer is that of a planner that was not used before, in
the same state of the world outside. It keeps the readings of the keys that were read, each the one
that would be made and of a key that passes the gate, and reports each of them once, when it is made
for the first time. To read a key is to pass the gate first, whether the reading is kept or not. -/
theorem Planner.history_leaves_no_mark (p : Planner) (storage : Storage ω) (outside : ω)
    (happenings : List (Happening ω)) :
    (∀ next, SameAnswer (p.meet storage next (p.history storage outside happenings).session)
        (p.meet storage next (.start (p.history storage outside happenings).session.outside))) ∧
      (∀ key r, (p.history storage outside happenings).session.readings.get? key = some r →
        (∃ field, (p.table.gate key).result = .ok field) ∧
          (p.makeReading key : Operation Signal Unit Reading).Gives () r ()) ∧
      (p.history storage outside happenings).session.readings.kept.names =
        (p.history storage outside happenings).keysRead.eraseDups ∧
      (p.history storage outside happenings).trace.filterMap Signal.madeKey? =
        (p.history storage outside happenings).keysRead.eraseDups.map
          (fun key ↦ some (.text key)) ∧
      ∀ key,
        (p.meet storage (.asked (.read key))
            (p.history storage outside happenings).session).result =
          (p.table.gate key).result.map
            (fun field ↦ some (.reading (readingAt p.stage key field))) ∧
        ∃ rest, (p.meet storage (.asked (.read key))
            (p.history storage outside happenings).session).trace =
          (p.table.gate key).trace ++ rest ∧
            ∀ s ∈ rest, s.madeKey? = some (some (.text key)) := by
  have hkept := p.kept_history storage outside happenings
  refine ⟨fun next ↦ p.sameAnswer_meet storage next hkept.keepsReadings, fun key r hr ↦ ?_,
    hkept.names, hkept.made, fun key ↦ ?_⟩
  · obtain ⟨field, hadmits, rfl⟩ := hkept.reading hr
    refine ⟨⟨field, ?_⟩, _, makeReading_eq hadmits.resolved ()⟩
    rw [FieldTable.gate, hadmits.pass_eq]
  · have hread := (p.reads_read key hkept.keepsReadings).eq_gate
    rw [p.meet_read]
    refine ⟨?_, hread.2⟩
    rw [hread.1]
    cases (p.table.gate key).result <;> rfl

end StagedColumns
