import StagedColumns.Proofs.Field.Table
import StagedColumns.Proofs.Planner.Dealings

/-!
# Assumed keys

Of its fields, a planner that is asked about a key looks up the field of that key and nothing else.
So two planners at one stage, of which the tables have the same field for a key, answer alike
(`meet_eq_of_sameAt`), and dealings in which only such keys are asked about come to the same
(`dealings_eq_of_sameAt`). In particular it makes no difference whether a key is allowed without
being listed, or is listed with an empty description.
-/

set_option autoImplicit false

namespace StagedColumns

variable {ω : Type}

/-! ### Tables that have the same field for a key -/

/-- The tables have the same field for the key, or refuse it alike, and report the same of it. -/
structure FieldTable.SameAt (t u : FieldTable) (key : String) : Prop where
  resolve_eq : t.resolve key = u.resolve key
  component_eq : t.component = u.component
  owner_eq : t.owner = u.owner

namespace FieldTable.SameAt

variable {t u : FieldTable} {key : String}

theorem componentOf_eq (h : t.SameAt u key) (field : UserField) :
    t.componentOf field = u.componentOf field := by
  rw [componentOf, componentOf, h.component_eq]

theorem warn_eq (h : t.SameAt u key) (what version component name : String) :
    (t.warn what version component name : Operation Signal ω Unit) =
      u.warn what version component name := by
  rw [warn, warn, h.owner_eq]

theorem pass_eq (h : t.SameAt u key) :
    (t.pass key : Operation Signal ω UserField) = u.pass key := by
  unfold pass
  simp only [h.resolve_eq, h.owner_eq, h.componentOf_eq, h.warn_eq]

theorem columnNames_eq (h : t.SameAt u key) : t.columnNames key = u.columnNames key := by
  rw [columnNames, columnNames, h.resolve_eq]

theorem tempTable_eq (h : t.SameAt u key) : t.tempTable key = u.tempTable key := by
  rw [FieldTable.tempTable, FieldTable.tempTable, h.resolve_eq]

end FieldTable.SameAt

/-! ### Planners that answer alike -/

/-- The planners are at one stage, and their tables have the same field for the key. -/
structure Planner.SameAt (p q : Planner) (key : String) : Prop where
  stage_eq : p.stage = q.stage
  table : p.table.SameAt q.table key

namespace Planner

namespace SameAt

variable {p q : Planner} {key : String}

theorem makeReading_eq (h : p.SameAt q key) :
    (p.makeReading key : Operation Signal ω Reading) = q.makeReading key := by
  rw [makeReading, makeReading, h.stage_eq, h.table.resolve_eq]

theorem read_eq (h : p.SameAt q key) : p.read key = q.read key := by
  rw [read, read, h.table.pass_eq, h.makeReading_eq]

theorem write_eq (h : p.SameAt q key) (storage : Storage ω) (handle : Handle) (user : User) :
    p.write storage handle key user = q.write storage handle key user := by
  rw [write, write, h.table.pass_eq, h.stage_eq]

theorem passLinked_eq (h : p.SameAt q key) (field : UserField) :
    (p.passLinked key field : Operation Signal ω Unit) = q.passLinked key field := by
  unfold passLinked
  simp only [h.table.componentOf_eq, h.table.warn_eq]

theorem writeLinked_eq (h : p.SameAt q key) (storage : Storage ω) (handle : Handle) (user : User) :
    p.writeLinked storage handle key user = q.writeLinked storage handle key user := by
  unfold writeLinked
  simp only [h.table.pass_eq, h.passLinked_eq, h.stage_eq]

theorem refuseWrite_eq {α : Type} (h : p.SameAt q key) (handle : Handle) (linked : Bool)
    (value : Datum) : (p.refuseWrite handle key linked value : Operation Signal ω α) =
      q.refuseWrite handle key linked value := by
  unfold refuseWrite
  simp only [h.table.pass_eq, h.passLinked_eq, h.stage_eq]

theorem search_eq (h : p.SameAt q key) (storage : Storage ω) (handle : Handle) (users : Datum)
    (includeIds : Bool) : p.search storage handle key users includeIds =
      q.search storage handle key users includeIds := by
  unfold search alternatives
  simp only [h.table.pass_eq, h.stage_eq]

end SameAt

variable {p q : Planner}

theorem answer_eq_of_sameAt {request : Request} {key : String} (hkey : request.key = key)
    (h : p.SameAt q key) (storage : Storage ω) :
    p.answer storage request = q.answer storage request := by
  cases request with
  | read own =>
    obtain rfl : own = key := hkey
    rw [answer, answer, h.read_eq]
  | write handle own user =>
    obtain rfl : own = key := hkey
    rw [answer, answer, h.write_eq]
  | writeLinked handle own user =>
    obtain rfl : own = key := hkey
    rw [answer, answer, h.writeLinked_eq]
  | search handle own users includeIds =>
    obtain rfl : own = key := hkey
    rw [answer, answer, h.search_eq]

theorem answerWrite_eq_of_sameAt {key : String} (h : p.SameAt q key) (storage : Storage ω)
    (handle : Handle) (linked : Bool) (value : Datum) :
    p.answerWrite storage handle key linked value =
      q.answerWrite storage handle key linked value := by
  unfold answerWrite
  cases User.ofDatum? value with
  | none => simp only [h.refuseWrite_eq]
  | some user =>
    cases linked with
    | false => exact answer_eq_of_sameAt rfl h storage
    | true => exact answer_eq_of_sameAt rfl h storage

/-- Whatever happens, only the key that is asked about matters. -/
theorem meet_eq_of_sameAt {h : Happening ω} (hsame : ∀ key, h.key? = some key → p.SameAt q key)
    (storage : Storage ω) : p.meet storage h = q.meet storage h := by
  cases h with
  | asked request => simp only [meet, answer_eq_of_sameAt rfl (hsame _ rfl)]
  | askedToWrite handle key linked value =>
    simp only [meet, answerWrite_eq_of_sameAt (hsame _ rfl)]
  | changed f => rfl

end Planner

/-- The key that is asked about in the step. -/
def Step.key? : Step ω → Option String
  | .ask h => h.key?
  | .finish .. => none

namespace Planner

variable {p q : Planner}

theorem deal_eq_of_sameAt {step : Step ω} (hsame : ∀ key, step.key? = some key → p.SameAt q key)
    (storage : Storage ω) (outcomes : List (Outcome Signal (Session ω) Reply)) :
    p.deal storage outcomes step = q.deal storage outcomes step := by
  cases step with
  | ask h => simp only [deal, meet_eq_of_sameAt hsame]
  | finish place mainKey extras => rfl

theorem dealOn_eq_of_sameAt {step : Step ω} (hsame : ∀ key, step.key? = some key → p.SameAt q key)
    (storage : Storage ω) (d : Dealings ω) : p.dealOn storage d step = q.dealOn storage d step := by
  unfold dealOn
  rw [deal_eq_of_sameAt hsame]

/-- Dealings come to the same with planners that have the same field for every key that is asked
about. -/
theorem dealings_eq_of_sameAt {steps : List (Step ω)}
    (hsame : ∀ step ∈ steps, ∀ key, step.key? = some key → p.SameAt q key) (storage : Storage ω)
    (outside : ω) : p.dealings storage outside steps = q.dealings storage outside steps := by
  unfold dealings
  refine List.foldl_ext _ _ _ fun d step hstep ↦ ?_
  exact dealOn_eq_of_sameAt (hsame step hstep) storage d

end Planner

/-! ### Keys that are listed without a description -/

/-- The value describes a field of which nothing is known. -/
inductive Datum.DescribesPlain : Datum → Prop
  | record : DescribesPlain (.record [])
  | field : DescribesPlain (.field .plain)

theorem UserField.ofDatum_of_describesPlain {given : Datum} (h : given.DescribesPlain)
    (key : String) : ofDatum key given = .ok .plain := by
  cases h <;> rfl

/-- The keys among those given that the configuration does not list, each once. -/
def RawRecord.missing (r : RawRecord) (keys : List String) : List String :=
  keys.eraseDups.filter fun key ↦ key ∉ r.map Prod.fst

/-- The configuration, which lists the keys that it does not list yet with the value. -/
def RawRecord.listing (r : RawRecord) (keys : List String) (given : Datum) : RawRecord :=
  r ++ (r.missing keys).map fun key ↦ (key, given)

namespace FieldTable

variable {r : RawRecord} {fields : List (String × UserField)}

theorem readFields_listing {given : Datum} (hgiven : given.DescribesPlain) (keys : List String)
    (h : readFields r = .ok fields) : readFields (r.listing keys given) =
      .ok (fields ++ (r.missing keys).map fun key ↦ (key, .plain)) := by
  rw [readFields_eq_ok_iff] at h ⊢
  refine List.rel_append h ?_
  rw [List.forall₂_map_left_iff, List.forall₂_map_right_iff, List.forall₂_same]
  exact fun key _ ↦ ⟨rfl, UserField.ofDatum_of_describesPlain hgiven key⟩

theorem readFields_listing_of_error {failure : Failure} (keys : List String) (given : Datum)
    (h : readFields r = .error failure) : readFields (r.listing keys given) = .error failure := by
  obtain ⟨before, key, value, after, rfl, hbefore, hfailed⟩ := readFields_eq_error_iff.mp h
  rw [readFields_eq_error_iff]
  exact ⟨before, key, value, _, List.append_assoc .., hbefore, hfailed⟩

/-- A key that is listed without a description has the field that it is assumed to have. -/
theorem sameAt_listing (h : readFields r = .ok fields) (component owner : String)
    {keys : List String} {key : String} (hkey : key ∈ keys) :
    SameAt ⟨OrderedMap.ofList fields, true, component, owner⟩
      ⟨OrderedMap.ofList (fields ++ (r.missing keys).map fun key ↦ (key, .plain)), false, component,
        owner⟩ key := by
  refine ⟨?_, rfl, rfl⟩
  have hmissing : key ∈ r.missing keys ↔ key ∉ fields.map Prod.fst := by
    simp [RawRecord.missing, names_of_readFields h, hkey]
  have hnodup : (((r.missing keys).map fun key ↦ (key, UserField.plain)).map Prod.fst).Nodup := by
    have hnames : (r.missing keys).map (Prod.fst ∘ fun key ↦ (key, UserField.plain)) =
        r.missing keys := List.map_id _
    rw [List.map_map, hnames]
    exact (nodup_eraseDups keys).filter _
  have hlisted : (OrderedMap.ofList (fields ++ (r.missing keys).map fun key ↦
      (key, UserField.plain))).get? key =
        (if key ∈ r.missing keys then some UserField.plain else none).or
          ((OrderedMap.ofList fields).get? key) := by
    rw [OrderedMap.get?_ofList_append fields hnodup, lookup_map_constant]
  rw [resolve_eq, resolve_eq, hlisted]
  by_cases hknown : key ∈ fields.map Prod.fst
  · rw [if_neg (mt hmissing.mp (not_not.mpr hknown))]
    cases hfield : (OrderedMap.ofList fields).get? key with
    | some field => rfl
    | none => exact absurd hknown (OrderedMap.get?_ofList_eq_none_iff.mp hfield)
  · rw [if_pos (hmissing.mpr hknown), OrderedMap.get?_ofList_eq_none_iff.mpr hknown]
    rfl

end FieldTable

namespace Planner

/-- Being configured, a planner gives no sign but an event. -/
theorem configure_eq {stage : Datum} {s : Stage} {r : RawRecord}
    {fields : List (String × UserField)} (hstage : Stage.ofDatum stage = .ok s)
    (hfields : FieldTable.readFields r = .ok fields) (name : String) (othersAllowed : Bool)
    (component : String) (now : ω) :
    ∃ e, configure name stage r othersAllowed component now =
      ⟨.ok ⟨s, ⟨OrderedMap.ofList fields, othersAllowed, component, name⟩⟩, now, [.event e]⟩ := by
  rw [configure, hstage, FieldTable.ofRecord, hfields]
  exact ⟨_, rfl⟩

theorem configure_of_error {stage : Datum} {failure : Failure}
    (hstage : Stage.ofDatum stage = .error failure) (name : String) (r : RawRecord)
    (othersAllowed : Bool) (component : String) (now : ω) :
    configure name stage r othersAllowed component now = ⟨.error failure, now, []⟩ := by
  rw [configure, hstage]
  rfl

theorem configure_of_readFields_error {stage : Datum} {s : Stage} {r : RawRecord}
    {failure : Failure} (hstage : Stage.ofDatum stage = .ok s)
    (hfields : FieldTable.readFields r = .error failure) (name : String) (othersAllowed : Bool)
    (component : String) (now : ω) :
    configure name stage r othersAllowed component now = ⟨.error failure, now, []⟩ := by
  rw [configure, hstage, FieldTable.ofRecord, hfields]
  rfl

/-- A planner that allows keys beyond its configuration, and one that allows none but lists them
without a description, are configured alike: both fail for the same reason, or both are there and
are at one stage. Then neither can be told from the other by dealings in which only such keys are
asked about, and those of the configuration: every step gives the same, leaves the same and gives
the same signs, calls and warnings among them. -/
theorem assumed_keys_as_listed (name : String) (stage : Datum) (r : RawRecord) (component : String)
    (keys : List String) {given : Datum} (hgiven : given.DescribesPlain) {κ : Type} (now : κ) :
    (∃ failure,
      configure name stage r true component now = ⟨.error failure, now, []⟩ ∧
      configure name stage (r.listing keys given) false component now =
        ⟨.error failure, now, []⟩) ∨
    ∃ p q e e',
      configure name stage r true component now = ⟨.ok p, now, [.event e]⟩ ∧
      configure name stage (r.listing keys given) false component now =
        ⟨.ok q, now, [.event e']⟩ ∧
      (∀ column, p.anonymousCondition column = q.anonymousCondition column ∧
        p.registeredCondition column = q.registeredCondition column) ∧
      (∀ key ∈ keys, p.table.resolve key = q.table.resolve key ∧
        p.table.columnNames key = q.table.columnNames key ∧
        p.table.tempTable key = q.table.tempTable key ∧
        (p.table.pass key : Operation Signal κ UserField) = q.table.pass key) ∧
      ∀ {ω : Type} (storage : Storage ω) (outside : ω) (steps : List (Step ω)),
        (∀ step ∈ steps, ∀ key, step.key? = some key → key ∈ keys) →
          p.dealings storage outside steps = q.dealings storage outside steps := by
  cases hstage : Stage.ofDatum stage with
  | error failure =>
    exact .inl ⟨failure, configure_of_error hstage .., configure_of_error hstage ..⟩
  | ok s =>
    cases hfields : FieldTable.readFields r with
    | error failure =>
      have hlisting := FieldTable.readFields_listing_of_error keys given hfields
      exact .inl ⟨failure, configure_of_readFields_error hstage hfields ..,
        configure_of_readFields_error hstage hlisting ..⟩
    | ok fields =>
      obtain ⟨e, hassuming⟩ := configure_eq hstage hfields name true component now
      obtain ⟨e', hlisting⟩ := configure_eq hstage
        (FieldTable.readFields_listing hgiven keys hfields) name false component now
      have hsame {key : String} (hkey : key ∈ keys) :=
        FieldTable.sameAt_listing hfields component name hkey
      refine .inr ⟨_, _, e, e', hassuming, hlisting, fun column ↦ ⟨rfl, rfl⟩, fun key hkey ↦ ?_,
        fun storage outside steps hsteps ↦ ?_⟩
      · exact ⟨(hsame hkey).resolve_eq, (hsame hkey).columnNames_eq, (hsame hkey).tempTable_eq,
          (hsame hkey).pass_eq⟩
      · apply dealings_eq_of_sameAt
        intro step hstep key hkey
        exact ⟨rfl, hsame (hsteps step hstep key hkey)⟩

/-- A configuration that lists the archive, and no revisions. -/
def archiveConfiguration : RawRecord :=
  [("ar_user", .record [("tempTable", .record [("table", "archive_actor"), ("pk", "aa_archive"),
    ("field", "aa_actor"), ("joinPk", "ar_id")])])]

/-- The revisions are searched by a planner that assumes them and by one that lists them. -/
theorem revisions_assumed_or_listed :
    Datum.DescribesPlain (.record []) ∧
      archiveConfiguration.listing ["ar_user", "rev_user"] (.record []) =
        archiveConfiguration ++ [("rev_user", .record [])] ∧
      ∃ p q e e',
        configure "planner" (.stage ⟨.both, .new, rfl⟩) archiveConfiguration true "core" () =
          ⟨.ok p, (), [.event e]⟩ ∧
        configure "planner" (.stage ⟨.both, .new, rfl⟩)
            (archiveConfiguration ++ [("rev_user", .record [])]) false "core" () =
          ⟨.ok q, (), [.event e']⟩ ∧
        p.dealings .rehearsal ⟨.empty, [], .empty⟩ (twoWikis .null) =
          q.dealings .rehearsal ⟨.empty, [], .empty⟩ (twoWikis .null) := by
  have hkeys : ∀ step ∈ twoWikis .null, ∀ key, step.key? = some key →
      key ∈ ["ar_user", "rev_user"] := by
    simp [twoWikis, Step.key?, Happening.key?, Request.key]
  refine ⟨.record, rfl, ?_⟩
  rcases assumed_keys_as_listed "planner" (.stage ⟨.both, .new, rfl⟩) archiveConfiguration "core"
      ["ar_user", "rev_user"] .record () with
    ⟨failure, hfailed, -⟩ | ⟨p, q, e, e', hassuming, hlisting, -, -, hdealings⟩
  · exact nomatch congrArg Outcome.result hfailed
  · exact ⟨p, q, e, e', hassuming, hlisting, hdealings .rehearsal _ _ hkeys⟩

end Planner

end StagedColumns
