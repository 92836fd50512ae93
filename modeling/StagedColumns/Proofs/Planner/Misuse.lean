import StagedColumns.Proofs.Planner.History
import StagedColumns.Proofs.Planner.Screening
import StagedColumns.Proofs.Sql.ColumnTest
import StagedColumns.Proofs.User

/-!
# Misuse is refused before anything happens

A planner is misused if it is asked about a key that its table does not have and does not allow, or
about a field that was removed, if a field is written in a way that does not fit it, or if users are
looked for that are none. `Misused` says this of what is asked alone: the stage, what was read
before and the state of the world outside do not matter, and a fault counts only if no earlier one
is there. Every request screens its misuse, so it is refused without a call of a collaborator, and
nothing is kept.
-/

set_option autoImplicit false

namespace StagedColumns

open Sql

variable {ω α : Type}

/-! ### What is misuse -/

namespace Planner

/-- The way of writing does not fit the field. -/
inductive Misfit (key : String) (field : UserField) : Bool → Failure → Prop
  | direct {t : TempTable} (htable : field.tempTable = some t) :
      Misfit key field false (.wrongWrite key linkedWrite)
  | linked (htable : field.tempTable = none) (hformer : field.formerTempTableIn = none) :
      Misfit key field true (.wrongWrite key directWrite)

/-- What is asked is a misuse of a planner of the table, to be reported by the failure. -/
inductive Misused (t : FieldTable) (h : Happening ω) : Failure → Prop
  | refused {key : String} {failure : Failure} (hkey : h.key? = some key)
      (hrefused : t.Refused key failure) : Misused t h failure
  | misfit {key : String} {field : UserField} {linked : Bool} {failure : Failure}
      (hkey : h.key? = some key) (hadmits : t.Admits key field) (hway : h.linked? = some linked)
      (hmisfit : Misfit key field linked failure) : Misused t h failure
  | notUsers {key : String} {field : UserField} {among : Datum} {type : String}
      (hkey : h.key? = some key) (hadmits : t.Admits key field) (hamong : h.among? = some among)
      (hnot : among.NotUsers type) : Misused t h (.invalidUsers User.searchName type)

/-! ### What comes after the checks -/

/-- What a collaborator reports is no misuse. -/
theorem isMisuse_of_mapError {answer : Except String α} {failure : Failure}
    (h : answer.mapError .collaborator = .error failure) : failure.isMisuse = false := by
  cases answer with
  | ok value => cases h
  | error message =>
    cases h
    rfl

theorem failsOnly_acquireActor (storage : Storage ω) (handle : Handle) (key : String)
    (user : User) : (acquireActor storage handle key user).FailsOnly (·.isMisuse = false) := by
  refine .bind (.sign _) fun _ ↦ .bind ?_ fun actor ↦ .bind (.sign _) fun _ ↦ .pure _
  intro state failure hfailed
  exact isMisuse_of_mapError hfailed

theorem failsOnly_findActors (storage : Storage ω) (domain : String) (users : List User) :
    (findActors storage domain users).FailsOnly (·.isMisuse = false) := by
  induction users with
  | nil => exact .pure _
  | cons user rest ih =>
    refine .bind ?_ fun found ↦ .bind ih fun others ↦ ?_
    · intro state failure hfailed
      exact isMisuse_of_mapError hfailed
    · cases found <;> exact .pure _

theorem exists_alternative_eq_ok [BEq α] [LawfulBEq α] {d : Dialect} {wrap : α → Datum}
    (hwrap : Datum.Faithful wrap) (hscalar : ∀ a, Scalar d (wrap a)) (name column : String)
    (values : List α) : ∃ found, alternative d name column (values.map wrap) = .ok found := by
  cases values with
  | nil => exact ⟨[], rfl⟩
  | cons a rest =>
    have hkept : ∀ v ∈ (a :: rest).eraseDups.map wrap, Scalar d v := by
      intro v hv
      obtain ⟨b, -, rfl⟩ := List.mem_map.mp hv
      exact hscalar b
    obtain ⟨text, htest⟩ := exists_testColumn_eq_ok column hkept (by simp)
      (Datum.distinct_map hwrap (a :: rest))
    refine ⟨[(name, text)], ?_⟩
    rw [List.map_cons] at htest ⊢
    simp only [alternative, htest]
    rfl

theorem exists_oldAlternatives_eq_ok (d : Dialect) (key textColumn : String) (includeIds : Bool)
    (users : List User) :
    ∃ found, oldAlternatives d key textColumn includeIds users = .ok found := by
  have hids := exists_alternative_eq_ok Datum.faithful_int (scalar_int d) "userid" key
    ((users.filter (byId includeIds)).map fun user ↦ (user.id : Int))
  have hnames := exists_alternative_eq_ok Datum.faithful_text (scalar_text d) "username" textColumn
    ((users.filter fun user ↦ !byId includeIds user).map fun user ↦ canonicalName user.name)
  simp only [List.map_map, Function.comp_def] at hids hnames
  obtain ⟨ids, hids⟩ := hids
  obtain ⟨names, hnames⟩ := hnames
  refine ⟨ids ++ names, ?_⟩
  simp only [oldAlternatives, hids, hnames]
  rfl

theorem exists_newAlternatives_eq_ok (d : Dialect) (key actorColumn : String)
    (tempTable : Option TempTable) (actors : List Int) :
    ∃ found, newAlternatives d key actorColumn tempTable actors = .ok found := by
  cases actors with
  | nil => exact ⟨_, rfl⟩
  | cons actor rest =>
    obtain ⟨found, hfound⟩ := exists_alternative_eq_ok Datum.faithful_int (scalar_int d) "actor"
      (actorSource key actorColumn tempTable).2.render (actor :: rest)
    refine ⟨((actorSource key actorColumn tempTable).1, found), ?_⟩
    simp only [newAlternatives, hfound]
    rfl

theorem exists_anyOf_eq_ok (alternatives : List (String × String)) :
    ∃ text, anyOf alternatives = .ok text := by
  match alternatives with
  | [] => exact ⟨_, rfl⟩
  | [_] => exact ⟨_, rfl⟩
  | _ :: _ :: _ => exact ⟨_, rfl⟩

/-- What can always be computed does not fail. -/
theorem failsOnly_ofExcept {may : Failure → Prop} {computed : Except Failure α}
    (h : ∃ value, computed = .ok value) :
    (Operation.ofExcept computed : Operation Signal ω α).FailsOnly may := by
  obtain ⟨value, rfl⟩ := h
  exact .pure value

theorem failsOnly_alternatives (p : Planner) (storage : Storage ω) (handle : Handle)
    (key : String) (field : UserField) (users : List User) (includeIds : Bool) :
    (p.alternatives storage handle key field users includeIds).FailsOnly
      (·.isMisuse = false) := by
  unfold alternatives
  cases p.stage.reading with
  | old => exact .bind (failsOnly_ofExcept (exists_oldAlternatives_eq_ok _ _ _ _ _)) fun _ ↦ .pure _
  | new =>
    simp only
    split
    · exact .pure _
    · exact .bind (.sign _) fun _ ↦ .bind (failsOnly_findActors storage handle.domain users)
        fun _ ↦ failsOnly_ofExcept (exists_newAlternatives_eq_ok _ _ _ _ _)

/-! ### The requests -/

theorem failsOnly_getOrMake {p : Planner} {key : String} {field : UserField}
    (hadmits : p.table.Admits key field) {may : Failure → Prop} :
    (Memo.getOrMake key (p.makeReading key)).FailsOnly may := by
  intro m failure hfailed
  cases hkept : m.get? key with
  | some r =>
    rw [Memo.getOrMake_of_kept hkept] at hfailed
    cases hfailed
  | none =>
    rw [Memo.getOrMake_of_missing hkept,
      Operation.bind_of_ok (makeReading_eq hadmits.resolved m), Memo.settle, hkept] at hfailed
    cases hfailed

theorem screens_read (p : Planner) (key : String) :
    (p.read key).Screens (p.table.Wrong key fun _ _ ↦ False) :=
  FieldTable.screens_gate fun _ hadmits ↦ (failsOnly_getOrMake hadmits).screens

/-- A field with a temp table is not written directly. -/
theorem screens_direct {key : String} {field : UserField} {op : Operation Signal ω α}
    (hop : op.FailsOnly (·.isMisuse = false)) :
    (if field.tempTable.isSome then Operation.fail (.wrongWrite key linkedWrite) else op).Screens
      (Misfit key field false) := by
  cases htable : field.tempTable with
  | some t =>
    refine (Operation.screens_fail _).congr fun failure ↦ ⟨?_, ?_⟩
    · rintro rfl
      exact .direct htable
    · intro hmisfit
      cases hmisfit
      rfl
  | none =>
    refine hop.screens.congr fun failure ↦ ⟨False.elim, ?_⟩
    intro hmisfit
    cases hmisfit with
    | direct hfound => simp [htable] at hfound

theorem screens_passLinked (p : Planner) (key : String) (field : UserField) :
    (p.passLinked key field : Operation Signal ω Unit).Screens (Misfit key field true) := by
  unfold passLinked
  split
  · next version hformer =>
    refine (p.table.silent_warn _ _ _ _).screens.congr fun failure ↦ ⟨False.elim, ?_⟩
    intro hmisfit
    cases hmisfit with
    | linked _ hnone => simp [hformer] at hnone
  · next t hformer htable =>
    refine (Operation.Silent.pure ()).screens.congr fun failure ↦ ⟨False.elim, ?_⟩
    intro hmisfit
    cases hmisfit with
    | linked hnone => simp [htable] at hnone
  · next hformer htable =>
    refine (Operation.screens_fail _).congr fun failure ↦ ⟨?_, ?_⟩
    · rintro rfl
      exact .linked htable hformer
    · intro hmisfit
      cases hmisfit
      rfl

/-- The way of writing is looked at right after the gate. -/
theorem screens_write (p : Planner) (storage : Storage ω) (handle : Handle) (key : String)
    (user : User) :
    (p.write storage handle key user).Screens
      (p.table.Wrong key fun field ↦ Misfit key field false) := by
  refine FieldTable.screens_gate fun field _ ↦ screens_direct ?_
  simp only
  split
  · exact .bind (failsOnly_acquireActor storage handle key user) fun _ ↦ .pure _
  · exact .pure _

theorem screens_writeLinked (p : Planner) (storage : Storage ω) (handle : Handle) (key : String)
    (user : User) :
    (p.writeLinked storage handle key user).Screens
      (p.table.Wrong key fun field ↦ Misfit key field true) := by
  refine FieldTable.screens_gate fun field _ ↦ (p.screens_passLinked key field).bind fun _ ↦ ?_
  simp only
  split
  · refine .bind (failsOnly_acquireActor storage handle key user) fun actor ↦ ?_
    split <;> exact .pure _
  · split <;> exact .pure _

theorem screens_refuseWrite (p : Planner) (handle : Handle) (key : String) (linked : Bool)
    (value : Datum) :
    (p.refuseWrite handle key linked value : Operation Signal ω α).Screens
      (p.table.Wrong key fun field ↦ Misfit key field linked) := by
  have hrefused : (p.refuseValue handle value : Operation Signal ω α).FailsOnly
      (·.isMisuse = false) := by
    unfold refuseValue
    split
    · exact .fail rfl
    · exact .bind (.sign _) fun _ ↦ .fail rfl
  cases linked with
  | true =>
    rw [refuseWrite_linked]
    exact FieldTable.screens_gate fun field _ ↦ (p.screens_passLinked key field).bind
      fun _ ↦ hrefused
  | false =>
    rw [refuseWrite_direct]
    exact FieldTable.screens_gate fun field _ ↦ screens_direct hrefused

theorem screens_search (p : Planner) (storage : Storage ω) (handle : Handle) (key : String)
    (among : Datum) (includeIds : Bool) :
    (p.search storage handle key among includeIds).Screens
      (p.table.Wrong key fun _ failure ↦
        ∃ type, among.NotUsers type ∧ failure = .invalidUsers User.searchName type) := by
  refine FieldTable.screens_gate fun field _ ↦ ?_
  have hlist := (Operation.screens_ofExcept (ω := ω) (User.listOf among)).congr
    (User.listOf_eq_error_iff among)
  refine hlist.bind fun users ↦ ?_
  exact .bind (p.failsOnly_alternatives storage handle key field users includeIds) fun _ ↦
    .bind (failsOnly_ofExcept (exists_anyOf_eq_ok _)) fun _ ↦ .bind (.sign _) fun _ ↦ .pure _

/-! ### All that happens -/

theorem wrong_iff_misused {t : FieldTable} {h : Happening ω} {key : String}
    {wrong : UserField → Failure → Prop} (hkey : h.key? = some key)
    (hwrong : ∀ field failure, wrong field failure ↔
      (∃ linked, h.linked? = some linked ∧ Misfit key field linked failure) ∨
        ∃ among, h.among? = some among ∧
          ∃ type, among.NotUsers type ∧ failure = .invalidUsers User.searchName type)
    (failure : Failure) : t.Wrong key wrong failure ↔ Misused t h failure := by
  constructor
  · rintro (hrefused | ⟨field, hadmits, hfault⟩)
    · exact .refused hkey hrefused
    · rcases (hwrong field failure).mp hfault with
        ⟨linked, hway, hmisfit⟩ | ⟨among, hamong, type, hnot, rfl⟩
      · exact .misfit hkey hadmits hway hmisfit
      · exact .notUsers hkey hadmits hamong hnot
  · intro hmisused
    cases hmisused with
    | refused hother hrefused =>
      obtain rfl := Option.some.inj (hkey.symm.trans hother)
      exact .inl hrefused
    | misfit hother hadmits hway hmisfit =>
      obtain rfl := Option.some.inj (hkey.symm.trans hother)
      exact .inr ⟨_, hadmits, (hwrong _ _).mpr (.inl ⟨_, hway, hmisfit⟩)⟩
    | notUsers hother hadmits hamong hnot =>
      obtain rfl := Option.some.inj (hkey.symm.trans hother)
      exact .inr ⟨_, hadmits, (hwrong _ _).mpr (.inr ⟨_, hamong, _, hnot, rfl⟩)⟩

theorem screens_answer (p : Planner) (storage : Storage ω) (request : Request) :
    (p.answer storage request).Screens (Misused p.table (.asked request : Happening ω)) := by
  cases request with
  | read key =>
    refine ((Session.screens_onReadings (p.screens_read key)).bind fun _ ↦ .pure _).congr
      (wrong_iff_misused rfl ?_)
    simp [Happening.linked?, Happening.among?]
  | write handle key user =>
    refine ((Session.screens_onOutside (p.screens_write storage handle key user)).bind
      fun _ ↦ .pure _).congr (wrong_iff_misused rfl ?_)
    simp [Happening.linked?, Happening.among?]
  | writeLinked handle key user =>
    refine ((Session.screens_onOutside (p.screens_writeLinked storage handle key user)).bind
      fun _ ↦ .pure _).congr (wrong_iff_misused rfl ?_)
    simp [Happening.linked?, Happening.among?]
  | search handle key among includeIds =>
    refine ((Session.screens_onOutside (p.screens_search storage handle key among
      includeIds)).bind fun _ ↦ .pure _).congr (wrong_iff_misused rfl ?_)
    simp [Happening.linked?, Happening.among?]

/-- A misuse is one of what is asked alone. -/
theorem Misused.of_same {t : FieldTable} {h other : Happening ω} {failure : Failure}
    (hmisused : Misused t h failure) (hkey : h.key? = other.key?)
    (hlinked : h.linked? = other.linked?) (hamong : h.among? = other.among?) :
    Misused t other failure := by
  cases hmisused with
  | refused hfound hrefused => exact .refused (hkey ▸ hfound) hrefused
  | misfit hfound hadmits hway hmisfit =>
    exact .misfit (hkey ▸ hfound) hadmits (hlinked ▸ hway) hmisfit
  | notUsers hfound hadmits husers hnot =>
    exact .notUsers (hkey ▸ hfound) hadmits (hamong ▸ husers) hnot

theorem screens_answerWrite (p : Planner) (storage : Storage ω) (handle : Handle) (key : String)
    (linked : Bool) (value : Datum) :
    (p.answerWrite storage handle key linked value).Screens
      (Misused p.table (.askedToWrite handle key linked value : Happening ω)) := by
  unfold answerWrite
  split
  · exact (p.screens_answer storage _).congr fun _ ↦
      ⟨fun h ↦ h.of_same rfl rfl rfl, fun h ↦ h.of_same rfl rfl rfl⟩
  · exact (p.screens_answer storage _).congr fun _ ↦
      ⟨fun h ↦ h.of_same rfl rfl rfl, fun h ↦ h.of_same rfl rfl rfl⟩
  · refine (Session.screens_onOutside (p.screens_refuseWrite handle key _ value)).congr
      (wrong_iff_misused rfl ?_)
    simp [Happening.linked?, Happening.among?]

theorem screens_meet (p : Planner) (storage : Storage ω) (h : Happening ω) :
    (p.meet storage h).Screens (Misused p.table h) := by
  cases h with
  | asked request => exact (p.screens_answer storage request).bind fun _ ↦ .pure _
  | askedToWrite handle key linked user =>
    exact (p.screens_answerWrite storage handle key linked user).bind fun _ ↦ .pure _
  | changed f =>
    have hchange : (p.meet storage (.changed f)).FailsOnly (·.isMisuse = false) :=
      .bind (fun _ _ ↦ nofun) fun _ ↦ .pure _
    refine hchange.screens.congr fun failure ↦ ⟨False.elim, fun hmisused ↦ ?_⟩
    cases hmisused with
    | refused hkey => cases hkey
    | misfit hkey => cases hkey
    | notUsers hkey => cases hkey

/-- Whatever a planner is asked, at any time, it reports a misuse exactly if it is one, and always
the first that is there: the key is unknown where others are not allowed; or else its field was
removed; or else it is to be written in a way that does not fit it, or users are looked for that are
none. By then no collaborator was called, and neither the kept readings nor the world outside have
changed. -/
theorem misuse_refused_before_effect (p : Planner) (storage : Storage ω) (h : Happening ω)
    (s : Session ω) :
    (∀ failure, Misused p.table h failure ↔
      (p.meet storage h s).result = .error failure ∧ failure.isMisuse = true) ∧
      ∀ failure, (p.meet storage h s).result = .error failure → failure.isMisuse = true →
        (p.meet storage h s).state = s ∧
          (p.meet storage h s).trace.filterMap Signal.call? = [] := by
  have hscreens := p.screens_meet storage h
  have hmisuse {failure : Failure} (hmisused : Misused p.table h failure) :
      failure.isMisuse = true := by
    cases hmisused with
    | refused _ hrefused => cases hrefused <;> rfl
    | misfit _ _ _ hmisfit => cases hmisfit <;> rfl
    | notUsers => rfl
  constructor
  · intro failure
    constructor
    · intro hmisused
      obtain ⟨signs, hrefused, -⟩ := hscreens.refused hmisused s
      exact ⟨by rw [hrefused], hmisuse hmisused⟩
    · rintro ⟨hfailed, hkind⟩
      exact hscreens.wrong hfailed hkind
  · intro failure hfailed hkind
    obtain ⟨signs, hrefused, hcalls⟩ := hscreens.refused (hscreens.wrong hfailed hkind) s
    rw [hrefused]
    exact ⟨rfl, hcalls⟩

end Planner

end StagedColumns
