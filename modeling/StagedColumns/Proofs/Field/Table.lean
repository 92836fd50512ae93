import StagedColumns.Field.Table
import StagedColumns.Proofs.Field.Reader

/-!
# Which configurations make a field table

A field table is read entry by entry, up to the first one that is refused
(`readFields_eq_error_iff`). Each entry is read as what it describes, so a table never holds a field
that its configuration does not describe.
-/

set_option autoImplicit false

namespace StagedColumns

open RawRecord

namespace FieldTable

open UserField

variable {r : RawRecord} {fields : List (String × UserField)} {failure : Failure}

theorem readFields_cons_of_ok {key : String} {given : Datum} {field : UserField}
    (h : ofDatum key given = .ok field) (rest : RawRecord) :
    readFields ((key, given) :: rest) = (readFields rest).map ((key, field) :: ·) := by
  rw [readFields, h]
  cases readFields rest <;> rfl

theorem readFields_cons_of_error {key : String} {given : Datum}
    (h : ofDatum key given = .error failure) (rest : RawRecord) :
    readFields ((key, given) :: rest) = .error failure := by
  rw [readFields, h]
  rfl

theorem readFields_eq_ok_iff :
    readFields r = .ok fields ↔
      List.Forall₂ (fun entry known ↦ entry.1 = known.1 ∧ ofDatum entry.1 entry.2 = .ok known.2) r
        fields := by
  induction r generalizing fields with
  | nil =>
    rw [readFields, Except.ok.injEq, List.forall₂_nil_left_iff, eq_comm]
  | cons entry rest ih =>
    obtain ⟨key, given⟩ := entry
    rw [List.forall₂_cons_left_iff]
    cases hread : ofDatum key given with
    | error failure =>
      rw [readFields_cons_of_error hread]
      refine iff_of_false nofun ?_
      rintro ⟨known, -, ⟨-, hknown⟩, -⟩
      cases hknown
    | ok field =>
      rw [readFields_cons_of_ok hread]
      constructor
      · intro h
        cases hrest : readFields rest with
        | error failure =>
          rw [hrest] at h
          cases h
        | ok others =>
          rw [hrest] at h
          cases h
          exact ⟨(key, field), others, ⟨rfl, rfl⟩, ih.mp hrest, rfl⟩
      · rintro ⟨⟨_, known⟩, others, ⟨rfl, hknown⟩, hothers, rfl⟩
        cases hknown
        rw [ih.mpr hothers]
        rfl

theorem names_of_readFields (h : readFields r = .ok fields) :
    r.map Prod.fst = fields.map Prod.fst := by
  have hentries := readFields_eq_ok_iff.mp h
  exact List.forall₂_eq_eq_eq ▸ (List.forall₂_map_left_iff.mpr
    (List.forall₂_map_right_iff.mpr (hentries.imp fun _ _ h ↦ h.1)))

/-- The failure of the first entry that is refused is reported. -/
theorem readFields_eq_error_iff :
    readFields r = .error failure ↔ ∃ before key given after, r = before ++ (key, given) :: after ∧
      (∀ entry ∈ before, ∃ f, ofDatum entry.1 entry.2 = .ok f) ∧
        ofDatum key given = .error failure := by
  induction r with
  | nil => simp [readFields]
  | cons entry rest ih =>
    obtain ⟨key, given⟩ := entry
    cases hread : ofDatum key given with
    | error own =>
      rw [readFields_cons_of_error hread]
      constructor
      · intro h
        cases h
        exact ⟨[], key, given, rest, rfl, nofun, hread⟩
      · rintro ⟨before, other, value, after, heq, hbefore, hfailed⟩
        cases before with
        | nil =>
          cases heq
          cases hread.symm.trans hfailed
          rfl
        | cons first before =>
          obtain ⟨rfl, -⟩ := List.cons.inj heq
          obtain ⟨f, hf⟩ := hbefore _ List.mem_cons_self
          cases hread.symm.trans hf
    | ok field =>
      have hrest : readFields ((key, given) :: rest) = .error failure ↔
          readFields rest = .error failure := by
        rw [readFields_cons_of_ok hread]
        cases readFields rest with
        | ok others => exact iff_of_false nofun nofun
        | error other => constructor <;> intro h <;> cases h <;> rfl
      rw [hrest, ih]
      constructor
      · rintro ⟨before, other, value, after, rfl, hbefore, hfailed⟩
        exact ⟨(key, given) :: before, other, value, after, rfl,
          List.forall_mem_cons.mpr ⟨⟨field, hread⟩, hbefore⟩, hfailed⟩
      · rintro ⟨before, other, value, after, heq, hbefore, hfailed⟩
        cases before with
        | nil =>
          cases heq
          cases hread.symm.trans hfailed
        | cons first before =>
          obtain ⟨rfl, rfl⟩ := List.cons.inj heq
          exact ⟨before, other, value, after, rfl, (List.forall_mem_cons.mp hbefore).2, hfailed⟩

section Table

variable {othersAllowed : Bool} {component owner : String}

theorem ofRecord_eq_error_iff :
    ofRecord r othersAllowed component owner = .error failure ↔ readFields r = .error failure := by
  rw [ofRecord]
  cases readFields r with
  | ok fields => exact iff_of_false nofun nofun
  | error other => constructor <;> intro h <;> cases h <;> rfl

/-- A table lists the fields of all entries in their order. -/
theorem ofRecord_eq_ok_iff (hdistinct : (r.map Prod.fst).Nodup) {t : FieldTable} :
    ofRecord r othersAllowed component owner = .ok t ↔
      readFields r = .ok t.fields.entries ∧ t.othersAllowed = othersAllowed ∧
        t.component = component ∧ t.owner = owner := by
  obtain ⟨fields, _, _, _⟩ := t
  rw [ofRecord]
  cases hread : readFields r with
  | error other => exact iff_of_false nofun nofun
  | ok entries =>
    have hlisted : (OrderedMap.ofList entries).entries = entries :=
      OrderedMap.entries_ofList (names_of_readFields hread ▸ hdistinct)
    constructor
    · intro h
      cases h
      exact ⟨by rw [hlisted], rfl, rfl, rfl⟩
    · rintro ⟨hfields, rfl, rfl, rfl⟩
      cases hfields
      change Except.ok (FieldTable.mk (OrderedMap.empty.merge fields) _ _ _) = _
      rw [OrderedMap.empty_merge]

end Table

/-- A mapping is read as a field exactly if it describes the field, and refused as broken
configuration of the key if it describes none. Neither the order of entries nor the choice of
spellings matters, and the order of the copies shows in the order of the copies only. A field is
read from all of its attributes, whether its temp table is read already or taken apart. A field table
has all fields of its configuration, or else the failure of the first entry that is refused is
reported. -/
theorem fields_read_as_described (key : String) (hr : r.IsMapping) :
    (∀ f, ofDatum key (.record r) = .ok f ↔ DescribedBy r f) ∧
    ((∃ f, DescribedBy r f) ∨ ∃ failure, ofDatum key (.record r) = .error failure ∧
      failure.kind? = some .config ∧ failure.circumstances = .of [("key", .text key)]) ∧
    (∀ others : RawRecord, others.IsMapping → Rewritten Eq r others → ∀ f,
      ofDatum key (.record r) = .ok f ↔ ofDatum key (.record others) = .ok f) ∧
    (∀ others : RawRecord, others.IsMapping → Rewritten List.Perm r others → ∀ f,
      ofDatum key (.record r) = .ok f →
        ∃ other, ofDatum key (.record others) = .ok other ∧ Alike List.Perm f other) ∧
    (∀ f, ofDatum key (.field f) = .ok f ∧
      ofDatum key (.record (Datum.fieldAttributes f)) = .ok f ∧
      ((∀ t, f.tempTable = some t → ∀ a : TempTable.NameAttribute, a.of t ≠ "") →
        ofDatum key (.record (allAttributes f)) = .ok f)) ∧
    ∀ (raw : RawRecord) (othersAllowed : Bool) (component owner : String),
      (∀ failure, ofRecord raw othersAllowed component owner = .error failure ↔
        ∃ before name given after, raw = before ++ (name, given) :: after ∧
          (∀ entry ∈ before, ∃ f, ofDatum entry.1 entry.2 = .ok f) ∧
            ofDatum name given = .error failure) ∧
      ((raw.map Prod.fst).Nodup → ∀ t, ofRecord raw othersAllowed component owner = .ok t ↔
        List.Forall₂ (fun entry known ↦
          entry.1 = known.1 ∧ ofDatum entry.1 entry.2 = .ok known.2) raw t.fields.entries ∧
        t.othersAllowed = othersAllowed ∧ t.component = component ∧ t.owner = owner) := by
  refine ⟨fun f ↦ ofDatum_record_eq_ok_iff hr key, ?_, ?_, ?_, ?_, ?_⟩
  · cases hread : ofDatum key (.record r) with
    | ok f => exact .inl ⟨f, (ofDatum_record_eq_ok_iff hr key).mp hread⟩
    | error failure => exact .inr ⟨failure, rfl, ofDatum_failure hread⟩
  · intro others hothers hrewritten f
    rw [ofDatum_record_eq_ok_iff hr, ofDatum_record_eq_ok_iff hothers,
      describedBy_iff_of_rewritten hrewritten]
  · intro others hothers hrewritten f hread
    obtain ⟨other, hother, halike⟩ :=
      ((ofDatum_record_eq_ok_iff hr key).mp hread).rewrite keepsTexts_perm hrewritten
    exact ⟨other, (ofDatum_record_eq_ok_iff hothers key).mpr hother, halike⟩
  · intro f
    have hfield := (ofDatum_record_eq_ok_iff (isMapping_fieldAttributes f) key).mpr
      (describedBy_fieldAttributes f)
    exact ⟨rfl, hfield, fun hnames ↦
      (ofDatum_record_eq_ok_iff (isMapping_allAttributes f) key).mpr
        (describedBy_allAttributes hnames)⟩
  · intro raw othersAllowed component owner
    refine ⟨fun failure ↦ ?_, fun hdistinct t ↦ ?_⟩
    · rw [ofRecord_eq_error_iff, readFields_eq_error_iff]
    · rw [ofRecord_eq_ok_iff hdistinct, readFields_eq_ok_iff]

/-- A temp table under the shortest spellings of its attributes. -/
def shortConfiguration : RawRecord :=
  [("tempTable", .record [("table", "revision_temp"), ("pk", "temp_rev"), ("field", "temp_actor"),
    ("joinPK", "rev_id")])]

/-- The same one under other spellings, in another order. -/
def longConfiguration : RawRecord :=
  [("temp_table", .record [("join_pk", "rev_id"), ("actor_field", "temp_actor"),
    ("pk", "temp_rev"), ("table", "revision_temp")])]

theorem isMapping_shortConfiguration : shortConfiguration.IsMapping := by
  refine .intro (by decide) fun name entries hmem ↦ ?_
  cases List.mem_singleton.mp hmem
  exact isMapping_of_no_record (by decide) (by simp)

theorem isMapping_longConfiguration : longConfiguration.IsMapping := by
  refine .intro (by decide) fun name entries hmem ↦ ?_
  cases List.mem_singleton.mp hmem
  exact isMapping_of_no_record (by decide) (by simp)

theorem rewritten_configuration :
    Rewritten Eq shortConfiguration longConfiguration := by
  have hmiddle : List.Forall₂ (SpelledLike TempTable.attributes (SameOr Eq))
      [("table", "revision_temp"), ("pk", "temp_rev"), ("field", "temp_actor"),
        ("joinPK", "rev_id")]
      [("table", .text "revision_temp"), ("pk", .text "temp_rev"),
        ("actor_field", .text "temp_actor"), ("join_pk", .text "rev_id")] := by
    refine .cons ⟨.inl rfl, .same _⟩ (.cons ⟨.inl rfl, .same _⟩ (.cons ⟨.inr ?_, .same _⟩
      (.cons ⟨.inr ?_, .same _⟩ .nil)))
    · exact ⟨TempTable.actorSpellings, by decide, by decide, by decide⟩
    · exact ⟨TempTable.mainKeySpellings, by decide, by decide, by decide⟩
  refine ⟨longConfiguration, .cons ⟨.inr ?_, .record ⟨_, hmiddle, ?_⟩⟩ .nil, .refl _⟩
  · exact ⟨tempTableSpellings, by decide, by decide, by decide⟩
  · exact List.reverse_perm _ |>.symm

/-- Both are read as the field that they describe. -/
theorem short_configuration_read :
    ∃ f, f.tempTable = some ⟨"revision_temp", "temp_rev", "temp_actor", "rev_id", .empty⟩ ∧
      DescribedBy shortConfiguration f ∧
      ofDatum "rev_user" (.record shortConfiguration) = .ok f ∧
      ofDatum "rev_user" (.record longConfiguration) = .ok f := by
  have hread : ofDatum "rev_user" (.record shortConfiguration) = .ok { UserField.plain with
      tempTable := some ⟨"revision_temp", "temp_rev", "temp_actor", "rev_id", .empty⟩ } := rfl
  obtain ⟨hdescribed, -, hrewritten, -⟩ :=
    fields_read_as_described "rev_user" isMapping_shortConfiguration
  exact ⟨_, rfl, (hdescribed _).mp hread, hread,
    (hrewritten _ isMapping_longConfiguration rewritten_configuration _).mp hread⟩

end FieldTable

end StagedColumns
