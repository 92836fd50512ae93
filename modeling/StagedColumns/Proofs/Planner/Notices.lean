import StagedColumns.Proofs.Planner.History
import StagedColumns.Rehearsal

/-!
# Notices of what is deprecated

A notice that something deprecated is in use is given twice over, as an event in the log and as a
warning that names the same key, version and component. Which notices an operation owes is fixed by
what is asked and by the field of the key: one if the field is deprecated, and another one for a
linked write if the field had its temp table in an earlier version. They are given when the field is
entered, before anything else, and none is given afterwards (`Operation.Notifies`). So the stage,
the kept readings, and the failures that may follow make no difference.
-/

set_option autoImplicit false

namespace StagedColumns

variable {ω α β : Type}

/-! ### Notices that are owed -/

/-- A notice that something deprecated is in use. -/
structure Notice where
  /-- What is in use, as the warning says it. -/
  what : String
  key : String
  version : String
  component : String

/-- The signs of a notice, which name its key, version and component alike: an event, and a warning.
-/
def Notice.signs (owner : String) (n : Notice) : List Signal :=
  [.event (.of "field_deprecated" .warning
      [("field", n.key), ("owner", owner), ("version", n.version), ("component", n.component)]),
    .deprecation ("Use of " ++ n.what ++ " was deprecated in " ++ n.component ++ " " ++ n.version ++
      ".")]

/-- The signal belongs to a notice. -/
def Signal.isNotice : Signal → Bool
  | .call _ => false
  | .event e => e.name = "field_deprecated"
  | .deprecation _ => true

namespace FieldTable

/-- The component that notices name: the field's own one, unless it has none or an empty one. -/
def noticedComponent (t : FieldTable) (field : UserField) : String :=
  (field.component.filter (· ≠ "")).getD t.component

/-- The notice that the field of a key is deprecated, if it is. -/
def deprecationNotice? (t : FieldTable) (key : String) (field : UserField) : Option Notice :=
  field.deprecatedIn.map fun version ↦
    ⟨t.owner ++ " for '" ++ key ++ "'", key, version, t.noticedComponent field⟩

/-- The notice that a linked write of a key is deprecated, if its field had a temp table earlier. -/
def linkedNotice? (t : FieldTable) (key : String) (field : UserField) : Option Notice :=
  field.formerTempTableIn.map fun version ↦
    ⟨Planner.linkedWrite ++ " for " ++ key, key, version, t.noticedComponent field⟩

/-- The notices for the field of a key, which is written together with its temp table or not. -/
def noticesFor (t : FieldTable) (key : String) (field : UserField) (linked : Bool) : List Notice :=
  (t.deprecationNotice? key field).toList ++
    if linked then (t.linkedNotice? key field).toList else []

/-- The signs of the notices for a key. A key that does not pass the gate has none. -/
def noticeSigns (t : FieldTable) (key : String) (linked : Bool) : List Signal :=
  match (t.gate key).result with
  | .ok field => (t.noticesFor key field linked).flatMap (Notice.signs t.owner)
  | .error _ => []

theorem Refused.noticeSigns {t : FieldTable} {key : String} {failure : Failure}
    (h : t.Refused key failure) (linked : Bool) : t.noticeSigns key linked = [] := by
  rw [FieldTable.noticeSigns, gate, h.pass_eq]

theorem Admits.noticeSigns {t : FieldTable} {key : String} {field : UserField}
    (h : t.Admits key field) (linked : Bool) :
    t.noticeSigns key linked = (t.noticesFor key field linked).flatMap (Notice.signs t.owner) := by
  rw [FieldTable.noticeSigns, gate, h.pass_eq]

theorem componentOf_eq_noticedComponent (t : FieldTable) (field : UserField) :
    t.componentOf field = t.noticedComponent field := by
  unfold componentOf noticedComponent UserField.nameOr
  split
  · next hnone => rw [hnone]; rfl
  · next hempty => rw [hempty]; rfl
  · next name hname hgiven =>
    rw [hgiven, Option.filter_some, if_pos (by simpa using hname)]
    rfl

theorem gateSigns_eq (t : FieldTable) (key : String) (field : UserField) :
    t.gateSigns key field =
      (t.deprecationNotice? key field).toList.flatMap (Notice.signs t.owner) := by
  unfold gateSigns deprecationNotice?
  rw [componentOf_eq_noticedComponent]
  cases field.deprecatedIn <;> rfl

end FieldTable

/-! ### Notices that are given -/

/-- Whatever the state, and whether it fails or not, the operation first gives the signs, and no
sign of a notice after them. -/
def Operation.Notifies (op : Operation Signal ω α) (signs : List Signal) : Prop :=
  ∀ state, ∃ rest, (op state).trace = signs ++ rest ∧ ∀ s ∈ rest, s.isNotice = false

namespace Operation

theorem Notifies.of_signs {op : Operation Signal ω α} (h : op.Signs (·.isNotice = false)) :
    op.Notifies [] :=
  fun state ↦ ⟨(op state).trace, rfl, h state⟩

theorem Notifies.bind {op : Operation Signal ω α} {next : α → Operation Signal ω β}
    {signs : List Signal} (hop : op.Notifies signs)
    (hnext : ∀ value, (next value).Signs (·.isNotice = false)) : (op >>= next).Notifies signs := by
  intro state
  obtain ⟨rest, htrace, hrest⟩ := hop state
  rcases hout : op state with ⟨result, later, trace⟩
  rw [hout] at htrace
  obtain rfl : trace = signs ++ rest := htrace
  cases result with
  | error failure => exact ⟨rest, by rw [bind_of_error hout], hrest⟩
  | ok value =>
    refine ⟨rest ++ (next value later).trace, ?_, fun s hs ↦ ?_⟩
    · rw [bind_of_ok hout, List.append_assoc]
    · exact (List.mem_append.mp hs).elim (hrest s) (hnext value later s)

/-- An operation that gives a value and signs hands over to the next one. -/
theorem Notifies.after {op : Operation Signal ω α} {next : α → Operation Signal ω β} {value : α}
    {signs more : List Signal} (hop : ∀ state, op state = ⟨.ok value, state, signs⟩)
    (hnext : (next value).Notifies more) : (op >>= next).Notifies (signs ++ more) := by
  intro state
  obtain ⟨rest, htrace, hrest⟩ := hnext state
  exact ⟨rest, by rw [bind_of_ok (hop state), htrace, List.append_assoc], hrest⟩

/-- The signs of notices among all signs are those that come first. -/
theorem Notifies.filter_trace {op : Operation Signal ω α} {signs : List Signal}
    (h : op.Notifies signs) (hsigns : ∀ s ∈ signs, s.isNotice = true) (state : ω) :
    (op state).trace.filter Signal.isNotice = signs := by
  obtain ⟨rest, htrace, hrest⟩ := h state
  rw [htrace, List.filter_append, List.filter_eq_self.mpr hsigns,
    List.filter_eq_nil_iff.mpr fun s hs ↦ by simp [hrest s hs], List.append_nil]

end Operation

theorem Signal.isNotice_of_isRoutine {s : Signal} (h : s.isRoutine = true) :
    s.isNotice = false := by
  cases s with
  | call c => rfl
  | deprecation text => cases h
  | event e =>
    rw [isRoutine, Bool.or_eq_true, decide_eq_true_iff, decide_eq_true_iff] at h
    refine decide_eq_false fun hname ↦ ?_
    simp [hname] at h

theorem FieldTable.isNotice_of_mem_noticeSigns {t : FieldTable} {key : String} {linked : Bool}
    {s : Signal} (hs : s ∈ t.noticeSigns key linked) : s.isNotice = true := by
  unfold noticeSigns at hs
  split at hs
  · obtain ⟨n, -, hs⟩ := List.mem_flatMap.mp hs
    rcases List.mem_pair.mp hs with rfl | rfl <;> rfl
  · cases hs

theorem Memo.signs_getOrMake {such : Signal → Prop} {name : String}
    {factory : Operation Signal (Memo α) α} (h : factory.Signs such) :
    (Memo.getOrMake name factory).Signs such := by
  intro m s hs
  cases hkept : m.get? name with
  | some value =>
    rw [Memo.getOrMake_of_kept hkept] at hs
    cases hs
  | none =>
    rw [Memo.getOrMake_of_missing hkept] at hs
    refine Operation.Signs.bind h (fun value later s hs ↦ ?_) m s hs
    unfold Memo.settle at hs
    split at hs <;> cases hs

namespace Planner

variable {p : Planner} {key : String} {linked : Bool}

/-- After the gate, a linked write is noticed if the field had a temp table in an earlier version.
Then it is let through in any case. -/
theorem notifies_passLinked (p : Planner) (key : String) (field : UserField) :
    (p.passLinked key field : Operation Signal ω Unit).Notifies
      ((p.table.linkedNotice? key field).toList.flatMap (Notice.signs p.table.owner)) := by
  unfold passLinked FieldTable.linkedNotice?
  cases field.formerTempTableIn with
  | some version =>
    rw [FieldTable.componentOf_eq_noticedComponent]
    exact fun state ↦ ⟨[], rfl, nofun⟩
  | none =>
    cases field.tempTable with
    | some t => exact .of_signs (.pure _)
    | none => exact .of_signs (.fail _)

theorem notifies_enter (p : Planner) (key : String) (linked : Bool) :
    (p.enter key linked : Operation Signal ω UserField).Notifies
      (p.table.noticeSigns key linked) := by
  unfold FieldTable.noticeSigns FieldTable.gate
  rcases p.table.refused_or_admits key with ⟨failure, hrefused⟩ | ⟨field, hadmits⟩
  · rw [hrefused.pass_eq]
    intro state
    exact ⟨[], by rw [enter, Operation.bind_of_error (hrefused.pass_eq state)]; rfl, nofun⟩
  · rw [hadmits.pass_eq]
    simp only [FieldTable.noticesFor, List.flatMap_append, ← FieldTable.gateSigns_eq]
    refine .after hadmits.pass_eq (.bind ?_ fun _ ↦ .pure _)
    cases linked with
    | true => exact p.notifies_passLinked key field
    | false => exact .of_signs (.pure _)

theorem Enters.notifies {op : Operation Signal ω α} (h : p.Enters key linked op) :
    op.Notifies (p.table.noticeSigns key linked) := by
  obtain ⟨rest, rfl, hrest⟩ := h
  exact (p.notifies_enter key linked).bind fun field ↦
    (hrest field).mono fun _ ↦ Signal.isNotice_of_isRoutine

/-- Reading a key that was read before gives the same notices as reading it for the first time. -/
theorem notifies_read (p : Planner) (key : String) :
    (p.read key).Notifies (p.table.noticeSigns key false) := by
  have hmake : (p.makeReading key : Operation Signal (Memo Reading) Reading).Signs
      (·.isNotice = false) :=
    .bind (.ofExcept _) fun field ↦ .bind (.sign rfl) fun _ ↦ .pure _
  have henter : p.read key =
      p.enter key false >>= fun _ ↦ Memo.getOrMake key (p.makeReading key) := by
    simp only [enter, Bool.false_eq_true, if_false, pure_bind, bind_pure]
    rfl
  rw [henter]
  exact (p.notifies_enter key false).bind fun _ ↦ Memo.signs_getOrMake hmake

end Planner

/-! ### Planners in use -/

theorem Session.notifies_onOutside {op : Operation Signal ω α} {signs : List Signal}
    (h : op.Notifies signs) : (Session.onOutside op).Notifies signs :=
  fun s ↦ h s.outside

theorem Session.notifies_onReadings {op : Operation Signal (Memo Reading) α} {signs : List Signal}
    (h : op.Notifies signs) :
    (Session.onReadings op : Operation Signal (Session ω) α).Notifies signs :=
  fun s ↦ h s.readings

/-- The request is a linked write. -/
def Request.isLinked : Request → Bool
  | .writeLinked .. => true
  | _ => false

/-- The signs of the notices that a happening gives: what is asked about a key is noticed, also if
it is a write for a value that is no user; a change of the world is not. -/
def Happening.noticeSigns (t : FieldTable) : Happening ω → List Signal
  | .asked request => t.noticeSigns request.key request.isLinked
  | .askedToWrite _ key linked _ => t.noticeSigns key linked
  | .changed _ => []

theorem Happening.noticeSigns_eq {h : Happening ω} {key : String} (t : FieldTable)
    (hkey : h.key? = some key) : h.noticeSigns t = t.noticeSigns key (h.linked? == some true) := by
  cases h with
  | asked request => cases request <;> cases hkey <;> rfl
  | askedToWrite handle name linked user =>
    cases hkey
    cases linked <;> rfl
  | changed f => cases hkey

theorem Happening.isNotice_of_mem_noticeSigns {t : FieldTable} {h : Happening ω} {s : Signal}
    (hs : s ∈ h.noticeSigns t) : s.isNotice = true := by
  cases h with
  | asked request => exact FieldTable.isNotice_of_mem_noticeSigns hs
  | askedToWrite handle key linked user => exact FieldTable.isNotice_of_mem_noticeSigns hs
  | changed f => cases hs

namespace Planner

theorem notifies_answer (p : Planner) (storage : Storage ω) (request : Request) :
    (p.answer storage request).Notifies (p.table.noticeSigns request.key request.isLinked) := by
  cases request with
  | read key =>
    exact .bind (Session.notifies_onReadings (p.notifies_read key)) fun _ ↦ .pure _
  | write handle key user =>
    exact .bind (Session.notifies_onOutside (p.enters_write storage handle key user).notifies)
      fun _ ↦ .pure _
  | writeLinked handle key user =>
    exact .bind
      (Session.notifies_onOutside (p.enters_writeLinked storage handle key user).notifies)
      fun _ ↦ .pure _
  | search handle key users includeIds =>
    exact .bind
      (Session.notifies_onOutside (p.enters_search storage handle key users includeIds).notifies)
      fun _ ↦ .pure _

theorem notifies_answerWrite (p : Planner) (storage : Storage ω) (handle : Handle) (key : String)
    (linked : Bool) (user : Datum) :
    (p.answerWrite storage handle key linked user).Notifies (p.table.noticeSigns key linked) := by
  unfold answerWrite
  split
  · exact p.notifies_answer storage (.write handle key _)
  · exact p.notifies_answer storage (.writeLinked handle key _)
  · exact Session.notifies_onOutside (p.enters_refuseWrite handle key _ user).notifies

theorem notifies_meet (p : Planner) (storage : Storage ω) (h : Happening ω) :
    (p.meet storage h).Notifies (h.noticeSigns p.table) := by
  cases h with
  | asked request => exact .bind (p.notifies_answer storage request) fun _ ↦ .pure _
  | askedToWrite handle key linked user =>
    exact .bind (p.notifies_answerWrite storage handle key linked user) fun _ ↦ .pure _
  | changed f => exact .of_signs (.bind (fun _ ↦ nofun) fun _ ↦ .pure _)

/-- Whatever a planner is used for, the notices given are those that each happening gives. -/
theorem notices_history (p : Planner) (storage : Storage ω) (outside : ω)
    (happenings : List (Happening ω)) :
    (p.history storage outside happenings).trace.filter Signal.isNotice =
      happenings.flatMap (Happening.noticeSigns p.table) := by
  -- the happenings go on from any past, whose notices stay the first ones
  have hfrom (past : Past ω) : (happenings.foldl (p.after storage) past).trace.filter
      Signal.isNotice =
        past.trace.filter Signal.isNotice ++
          happenings.flatMap (Happening.noticeSigns p.table) := by
    induction happenings generalizing past with
    | nil => simp
    | cons next rest ih =>
      have hnext := (p.notifies_meet storage next).filter_trace
        (fun s ↦ Happening.isNotice_of_mem_noticeSigns) past.session
      rw [List.foldl_cons, ih, after, List.filter_append, hnext, List.append_assoc,
        List.flatMap_cons]
  exact hfrom _

/-- Whatever a planner was asked before, what is asked about a key that is refused gives no notice.
What is asked about a key that passes gives the notices that it owes before any other sign, and no
notice after them, whether it is answered or fails. So all notices since the start are those owed by
what was asked, in order. -/
theorem notices_are_exact (p : Planner) (storage : Storage ω) :
    (∀ (h : Happening ω) (s : Session ω) (key : String), h.key? = some key →
      (∀ failure, p.table.Refused key failure →
        (p.meet storage h s).trace.filter Signal.isNotice = []) ∧
      ∀ field, p.table.Admits key field →
        ∃ rest, (p.meet storage h s).trace =
            (p.table.noticesFor key field (h.linked? == some true)).flatMap
              (Notice.signs p.table.owner) ++ rest ∧
          ∀ sign ∈ rest, sign.isNotice = false) ∧
      ∀ (outside : ω) (happenings : List (Happening ω)),
        (p.history storage outside happenings).trace.filter Signal.isNotice =
          happenings.flatMap (Happening.noticeSigns p.table) := by
  refine ⟨fun h s key hkey ↦ ?_, p.notices_history storage⟩
  have hgiven := p.notifies_meet storage h
  rw [h.noticeSigns_eq p.table hkey] at hgiven
  refine ⟨fun failure hrefused ↦ ?_, fun field hadmits ↦ ?_⟩
  · rw [hgiven.filter_trace (fun s ↦ FieldTable.isNotice_of_mem_noticeSigns), hrefused.noticeSigns]
  · rw [hadmits.noticeSigns] at hgiven
    exact hgiven s

/-- A deprecated field that had its temp table in an earlier version. -/
def retiringField : UserField :=
  { UserField.plain with
    deprecatedIn := some "1.40", formerTempTableIn := some "1.39", component := some "Upload" }

/-- A planner that knows a deprecated field and no other key. -/
def retiringPlanner : Planner :=
  ⟨.only .new, ⟨.ofList [("oi_user", retiringField)], false, "core", "planner"⟩⟩

/-- A session in which no roster answers for one user. -/
def refusedSession : Session Rehearsal :=
  .start ⟨.empty, ["Ada"], .empty⟩

/-- A linked write for that user. -/
def linkedWriteOf (key : String) : Happening Rehearsal :=
  .askedToWrite ⟨"main", .sqlite, "local"⟩ key true (.user 7 "Ada" .null)

/-- A linked write that the roster refuses is noticed twice all the same; that of an unknown key is
not. -/
theorem refused_linked_write_noticed :
    (retiringPlanner.meet .rehearsal (linkedWriteOf "oi_user") refusedSession).result =
        .error (.collaborator "store failed: Ada") ∧
      (∃ rest, (retiringPlanner.meet .rehearsal (linkedWriteOf "oi_user") refusedSession).trace =
          [⟨"planner for 'oi_user'", "oi_user", "1.40", "Upload"⟩,
            ⟨"build_insert_values_with_temp_table for oi_user", "oi_user", "1.39",
              "Upload"⟩].flatMap (Notice.signs "planner") ++ rest ∧
        ∀ sign ∈ rest, sign.isNotice = false) ∧
      (retiringPlanner.meet .rehearsal (linkedWriteOf "img_user") refusedSession).trace.filter
        Signal.isNotice = [] := by
  have hexact := (notices_are_exact retiringPlanner .rehearsal).1
  refine ⟨rfl, ?_, ?_⟩
  · exact (hexact (linkedWriteOf "oi_user") refusedSession "oi_user" rfl).2 retiringField ⟨rfl, rfl⟩
  · exact (hexact (linkedWriteOf "img_user") refusedSession "img_user" rfl).1 _ (.unknown rfl rfl)

end Planner

end StagedColumns
