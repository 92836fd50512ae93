import StagedColumns.Failure.Report
import StagedColumns.Proofs.Field.Spelling

/-!
# Which configurations describe a field

A record is read as a field exactly if it describes it: each of its names is a spelling of an
attribute, no attribute is given twice, and the values are what the attributes ask for
(`ofRecord_eq_accept_iff`). The description says nothing about order or spelling, so neither
matters (`describedBy_iff_of_rewritten`), and a field is described by its own attributes.
-/

set_option autoImplicit false

namespace StagedColumns

open RawRecord

/-! ### Temp tables -/

namespace TempTable

/-- The attributes of a temp table that are names. -/
inductive NameAttribute
  | table
  | key
  | actor
  | mainKey

/-- The spellings of the attribute. -/
def NameAttribute.spellings : NameAttribute → List String
  | .table => nameSpellings
  | .key => keySpellings
  | .actor => actorSpellings
  | .mainKey => mainKeySpellings

/-- The attribute of a temp table. -/
def NameAttribute.of (t : TempTable) : NameAttribute → String
  | .table => t.name
  | .key => t.keyColumn
  | .actor => t.actorColumn
  | .mainKey => t.mainKey

/-- All attributes, by their spellings. -/
def attributes : List (List String) :=
  [nameSpellings, keySpellings, actorSpellings, mainKeySpellings, copySpellings]

theorem apart_attributes : RawRecord.Apart attributes := by
  decide

theorem NameAttribute.mem_attributes (a : NameAttribute) : a.spellings ∈ attributes := by
  cases a <;> simp [spellings, attributes]

/-- The record gives each name of the temp table once, its copies or nothing for them, and nothing
else. -/
structure DescribedBy (r : RawRecord) (t : TempTable) : Prop where
  keepsTo : r.KeepsTo attributes
  names : ∀ a : NameAttribute, r.GivesName a.spellings (a.of t)
  copies : r.GivesTexts copySpellings t.copies

variable {r : RawRecord} {t : TempTable}

theorem DescribedBy.length_le (h : DescribedBy r t) :
    ∀ spellings ∈ attributes, (r.valuesOf spellings).length ≤ 1 := by
  simp only [attributes, List.forall_mem_cons]
  exact ⟨(h.names .table).length_le, (h.names .key).length_le, (h.names .actor).length_le,
    (h.names .mainKey).length_le, h.copies.length_le, nofun⟩

theorem readCopies_eq_accept_iff (hr : r.IsMapping)
    (honce : (r.valuesOf copySpellings).length ≤ 1) {copies : OrderedMap String} :
    readCopies r = .accept copies ↔ r.GivesTexts copySpellings copies := by
  unfold readCopies
  rcases spelled?_cases honce with ⟨hspelled, hvalues⟩ | ⟨name, value, hspelled, hvalues, hmem⟩
  · simp only [hspelled, Checked.accept_inj]
    constructor
    · rintro rfl
      exact .leftOut hvalues
    · rintro (_ | ⟨h, -⟩)
      · rfl
      · cases hvalues.symm.trans h
  · rw [hspelled]
    cases value with
    | record columns =>
      simp only [Checked.under_eq_accept_iff, Checked.map_eq_accept_iff, readTexts_eq_accept_iff]
      constructor
      · rintro ⟨texts, hspells, rfl⟩
        refine .record hvalues ?_
        rwa [OrderedMap.entries_ofList (hspells.names_eq ▸ (hr.of_mem hmem).nodup)]
      · rintro (h | ⟨h, hspells⟩)
        · cases hvalues.symm.trans h
        · cases hvalues.symm.trans h
          exact ⟨_, hspells, copies.empty_merge⟩
    | _ =>
      constructor
      · intro h
        cases h
      · rintro (h | ⟨h, -⟩) <;> cases hvalues.symm.trans h

theorem ofRecord_eq_accept_iff (hr : r.IsMapping) : ofRecord r = .accept t ↔ DescribedBy r t := by
  rw [Checked.eq_accept_iff_exists, ofRecord]
  simp only [Checked.exists_apply_iff, Checked.accept_inj, exists_eq_left',
    Checked.withIssues_eq_accept_iff, and_true, exists_const]
  change (∃ name, _ ∧ ∃ keyColumn, _ ∧ ∃ actorColumn, _ ∧ ∃ mainKey, _ ∧ ∃ copies, _ ∧
    r.leftOver attributes = [] ∧ TempTable.mk name keyColumn actorColumn mainKey copies = t) ↔ _
  rw [leftOver_eq_nil_iff hr.nodup apart_attributes]
  constructor
  · rintro ⟨name, hname, keyColumn, hkey, actorColumn, hactor, mainKey, hmainKey, copies, hcopies,
      ⟨hkeeps, honce⟩, rfl⟩
    refine ⟨hkeeps, fun a ↦ ?_, (readCopies_eq_accept_iff hr (honce _ (by decide))).mp hcopies⟩
    have hlength := honce _ a.mem_attributes
    cases a with
    | table => exact (readName_eq_accept_iff hlength).mp hname
    | key => exact (readName_eq_accept_iff hlength).mp hkey
    | actor => exact (readName_eq_accept_iff hlength).mp hactor
    | mainKey => exact (readName_eq_accept_iff hlength).mp hmainKey
  · intro h
    have hname (a : NameAttribute) : r.readName a.spellings = .accept (a.of t) :=
      (readName_eq_accept_iff (h.names a).length_le).mpr (h.names a)
    exact ⟨_, hname .table, _, hname .key, _, hname .actor, _, hname .mainKey, _,
      (readCopies_eq_accept_iff hr h.copies.length_le).mpr h.copies, ⟨h.keepsTo, h.length_le⟩, rfl⟩

/-- Two temp tables have the same names, and copies that are alike. -/
structure Alike (alike : List (String × String) → List (String × String) → Prop)
    (t other : TempTable) : Prop where
  names : ∀ a : NameAttribute, a.of t = a.of other
  copies : alike t.copies.entries other.copies.entries

theorem Alike.eq {other : TempTable} (h : Alike Eq t other) : t = other := by
  obtain ⟨name, keyColumn, actorColumn, mainKey, ⟨copies, hcopies⟩⟩ := t
  obtain ⟨name', keyColumn', actorColumn', mainKey', ⟨copies', hcopies'⟩⟩ := other
  cases h.names .table
  cases h.names .key
  cases h.names .actor
  cases h.names .mainKey
  cases h.copies
  rfl

theorem eq_of_rel_alike {t? other? : Option TempTable} (h : Option.Rel (Alike Eq) t? other?) :
    t? = other? := by
  cases h with
  | none => rfl
  | some halike => rw [halike.eq]

/-- A record with other spellings, in another order, describes what the first one does. -/
theorem DescribedBy.rewrite {related : RawRecord → RawRecord → Prop}
    {alike : List (String × String) → List (String × String) → Prop}
    (hkeeps : KeepsTexts related alike) {others : RawRecord}
    (hrewrites : r.Rewrites attributes (SameOr related) others) (h : DescribedBy r t) :
    ∃ other, DescribedBy others other ∧ Alike alike t other := by
  obtain ⟨copies, hcopies, halike⟩ :=
    h.copies.rewrite hkeeps apart_attributes hrewrites (by decide)
  refine ⟨{ t with copies := copies }, ⟨hrewrites.keepsTo apart_attributes h.keepsTo, fun a ↦ ?_,
    hcopies⟩, fun a ↦ by cases a <;> rfl, halike⟩
  have hname := (h.names a).rewrite apart_attributes hrewrites a.mem_attributes
  cases a <;> exact hname

/-- The attributes of a temp table describe it, if its names are not empty. -/
theorem describedBy_attributes (hnames : ∀ a : NameAttribute, a.of t ≠ "") :
    DescribedBy (Datum.tempTableAttributes t) t where
  keepsTo := by
    simp only [KeepsTo, Datum.tempTableAttributes, List.forall_mem_cons]
    decide
  names a := by
    refine ⟨.text (a.of t), ?_, .text _, hnames a⟩
    cases a <;> rfl
  copies := by
    refine .record rfl ?_
    rw [SpellsTexts, List.forall₂_map_left_iff, List.forall₂_same]
    exact fun copy _ ↦ ⟨rfl, .text _⟩

theorem isMapping_attributes (t : TempTable) :
    IsMapping (Datum.tempTableAttributes t) := by
  refine .intro (by simp [Datum.tempTableAttributes]) fun name entries hmem ↦ ?_
  simp only [Datum.tempTableAttributes, List.mem_cons, Prod.mk.injEq, reduceCtorEq, and_false,
    List.not_mem_nil, or_false, false_or, Datum.record.injEq] at hmem
  obtain ⟨-, rfl⟩ := hmem
  refine isMapping_of_no_record ?_ fun entry hentry entries ↦ ?_
  · rw [List.map_map]
    exact t.copies.distinct
  · obtain ⟨copy, -, rfl⟩ := List.mem_map.mp hentry
    exact nofun

end TempTable

/-! ### Fields -/

namespace UserField

/-- The attributes of a field that are texts. -/
inductive TextAttribute
  | text
  | actor
  | deprecated
  | removed
  | formerTempTable
  | component

/-- The spellings of the attribute. -/
def TextAttribute.spellings : TextAttribute → List String
  | .text => textSpellings
  | .actor => actorSpellings
  | .deprecated => deprecatedSpellings
  | .removed => removedSpellings
  | .formerTempTable => formerTempTableSpellings
  | .component => componentSpellings

/-- The attribute of a field. -/
def TextAttribute.of (f : UserField) : TextAttribute → Option String
  | .text => f.textColumn
  | .actor => f.actorColumn
  | .deprecated => f.deprecatedIn
  | .removed => f.removedIn
  | .formerTempTable => f.formerTempTableIn
  | .component => f.component

/-- All attributes, by their spellings. -/
def attributes : List (List String) :=
  [textSpellings, actorSpellings, tempTableSpellings, deprecatedSpellings, removedSpellings,
    formerTempTableSpellings, componentSpellings]

theorem apart_attributes : RawRecord.Apart attributes := by
  decide

theorem TextAttribute.mem_attributes (a : TextAttribute) : a.spellings ∈ attributes := by
  cases a <;> simp [spellings, attributes]

/-- The record gives a temp table that is read already or that a record describes, or leaves it out
or gives the absent value. -/
inductive GivesTempTable (r : RawRecord) : Option TempTable → Prop
  | leftOut (h : r.valuesOf tempTableSpellings = []) : GivesTempTable r none
  | null (h : r.valuesOf tempTableSpellings = [.null]) : GivesTempTable r none
  | read {t : TempTable} (h : r.valuesOf tempTableSpellings = [.tempTable t]) :
      GivesTempTable r (some t)
  | record {entries : RawRecord} {t : TempTable}
      (h : r.valuesOf tempTableSpellings = [.record entries])
      (hdescribed : TempTable.DescribedBy entries t) : GivesTempTable r (some t)

/-- The record gives each attribute of the field or nothing for it, and nothing else. -/
structure DescribedBy (r : RawRecord) (f : UserField) : Prop where
  keepsTo : r.KeepsTo attributes
  texts : ∀ a : TextAttribute, r.GivesOptional a.spellings (a.of f)
  tempTable : GivesTempTable r f.tempTable

section Described

variable {r : RawRecord} {f : UserField}

theorem GivesTempTable.length_le {t? : Option TempTable} (h : GivesTempTable r t?) :
    (r.valuesOf tempTableSpellings).length ≤ 1 := by
  cases h <;> simp [*]

theorem DescribedBy.length_le (h : DescribedBy r f) :
    ∀ spellings ∈ attributes, (r.valuesOf spellings).length ≤ 1 := by
  simp only [attributes, List.forall_mem_cons]
  exact ⟨(h.texts .text).length_le, (h.texts .actor).length_le, h.tempTable.length_le,
    (h.texts .deprecated).length_le, (h.texts .removed).length_le,
    (h.texts .formerTempTable).length_le, (h.texts .component).length_le, nofun⟩

theorem readTempTable_eq_accept_iff (hr : r.IsMapping)
    (honce : (r.valuesOf tempTableSpellings).length ≤ 1) {t? : Option TempTable} :
    readTempTable r = .accept t? ↔ GivesTempTable r t? := by
  unfold readTempTable
  rcases spelled?_cases honce with ⟨hspelled, hvalues⟩ | ⟨name, value, hspelled, hvalues, hmem⟩
  · simp only [hspelled, Checked.accept_inj]
    constructor
    · rintro rfl
      exact .leftOut hvalues
    · rintro (_ | _ | h | ⟨h, -⟩)
      · rfl
      · rfl
      · cases hvalues.symm.trans h
      · cases hvalues.symm.trans h
  · rw [hspelled]
    cases value with
    | null =>
      simp only [Checked.accept_inj]
      constructor
      · rintro rfl
        exact .null hvalues
      · rintro (_ | _ | h | ⟨h, -⟩)
        · rfl
        · rfl
        · cases hvalues.symm.trans h
        · cases hvalues.symm.trans h
    | tempTable t =>
      simp only [Checked.accept_inj]
      constructor
      · rintro rfl
        exact .read hvalues
      · rintro (h | h | h | ⟨h, -⟩) <;> cases hvalues.symm.trans h
        rfl
    | record entries =>
      simp only [Checked.under_eq_accept_iff, Checked.map_eq_accept_iff,
        TempTable.ofRecord_eq_accept_iff (hr.of_mem hmem)]
      constructor
      · rintro ⟨t, hdescribed, rfl⟩
        exact .record hvalues hdescribed
      · rintro (h | h | h | ⟨h, hdescribed⟩) <;> cases hvalues.symm.trans h
        exact ⟨_, hdescribed, rfl⟩
    | _ =>
      constructor
      · intro h
        cases h
      · rintro (h | h | h | ⟨h, -⟩) <;> cases hvalues.symm.trans h

theorem ofRecord_eq_accept_iff (hr : r.IsMapping) : ofRecord r = .accept f ↔ DescribedBy r f := by
  rw [Checked.eq_accept_iff_exists, ofRecord]
  simp only [Checked.exists_apply_iff, Checked.accept_inj, exists_eq_left',
    Checked.withIssues_eq_accept_iff, and_true, exists_const]
  change (∃ text, _ ∧ ∃ actor, _ ∧ ∃ tempTable, _ ∧ ∃ deprecated, _ ∧ ∃ removed, _ ∧
    ∃ formerTempTable, _ ∧ ∃ component, _ ∧ r.leftOver attributes = [] ∧ UserField.mk text actor
      tempTable deprecated removed formerTempTable component = f) ↔ _
  rw [leftOver_eq_nil_iff hr.nodup apart_attributes]
  constructor
  · rintro ⟨text, htext, actor, hactor, tempTable, htempTable, deprecated, hdeprecated, removed,
      hremoved, formerTempTable, hformer, component, hcomponent, ⟨hkeeps, honce⟩, rfl⟩
    refine ⟨hkeeps, fun a ↦ ?_,
      (readTempTable_eq_accept_iff hr (honce _ (by decide))).mp htempTable⟩
    have hlength := honce _ a.mem_attributes
    cases a with
    | text => exact (readOptional_eq_accept_iff hlength).mp htext
    | actor => exact (readOptional_eq_accept_iff hlength).mp hactor
    | deprecated => exact (readOptional_eq_accept_iff hlength).mp hdeprecated
    | removed => exact (readOptional_eq_accept_iff hlength).mp hremoved
    | formerTempTable => exact (readOptional_eq_accept_iff hlength).mp hformer
    | component => exact (readOptional_eq_accept_iff hlength).mp hcomponent
  · intro h
    have htext (a : TextAttribute) : r.readOptional a.spellings = .accept (a.of f) :=
      (readOptional_eq_accept_iff (h.texts a).length_le).mpr (h.texts a)
    exact ⟨_, htext .text, _, htext .actor, _,
      (readTempTable_eq_accept_iff hr h.tempTable.length_le).mpr h.tempTable, _,
      htext .deprecated, _, htext .removed, _, htext .formerTempTable, _, htext .component,
      ⟨h.keepsTo, h.length_le⟩, rfl⟩

/-- Two fields have the same attributes, up to the copies of their temp tables, which are alike. -/
structure Alike (alike : List (String × String) → List (String × String) → Prop)
    (f other : UserField) : Prop where
  texts : ∀ a : TextAttribute, a.of f = a.of other
  tempTable : Option.Rel (TempTable.Alike alike) f.tempTable other.tempTable

theorem Alike.eq {other : UserField} (h : Alike Eq f other) : f = other := by
  obtain ⟨text, actor, tempTable, deprecated, removed, former, component⟩ := f
  obtain ⟨text', actor', tempTable', deprecated', removed', former', component'⟩ := other
  cases h.texts .text
  cases h.texts .actor
  cases TempTable.eq_of_rel_alike h.tempTable
  cases h.texts .deprecated
  cases h.texts .removed
  cases h.texts .formerTempTable
  cases h.texts .component
  rfl

/-- The second record is the first one with its entries in any order and each under any spelling of
its name. The same may be true of the record of the temp table, and the records of its copies stand
in the relation. -/
def Rewritten (copies : RawRecord → RawRecord → Prop) (r others : RawRecord) : Prop :=
  r.Rewrites attributes
    (SameOr fun entries otherEntries ↦
      entries.Rewrites TempTable.attributes (SameOr copies) otherEntries) others

theorem Rewritten.symm {copies : RawRecord → RawRecord → Prop} {others : RawRecord}
    (hcopies : ∀ columns otherColumns, copies columns otherColumns → copies otherColumns columns)
    (h : Rewritten copies r others) : Rewritten copies others r :=
  Rewrites.symm (fun _ _ ↦ SameOr.symm fun _ _ ↦
    Rewrites.symm fun _ _ ↦ SameOr.symm hcopies) h

section Rewriting

variable {copies : RawRecord → RawRecord → Prop} {others : RawRecord}
variable {alike : List (String × String) → List (String × String) → Prop}

theorem GivesTempTable.rewrite (hkeeps : KeepsTexts copies alike)
    (hrewritten : Rewritten copies r others) {t? : Option TempTable} (h : GivesTempTable r t?) :
    ∃ other?, GivesTempTable others other? ∧ Option.Rel (TempTable.Alike alike) t? other? := by
  have hmem : tempTableSpellings ∈ attributes := by
    decide
  have hrefl (t : TempTable) : TempTable.Alike alike t t := ⟨fun _ ↦ rfl, hkeeps.refl _⟩
  cases h with
  | leftOut hnone =>
    exact ⟨none, .leftOut (hrewritten.valuesOf_eq_nil apart_attributes hmem hnone), .none⟩
  | null hnull =>
    obtain ⟨other, hsame, hother⟩ :=
      hrewritten.valuesOf_eq_singleton apart_attributes hmem hnull
    cases hsame
    exact ⟨none, .null hother, .none⟩
  | read hread =>
    obtain ⟨other, hsame, hother⟩ :=
      hrewritten.valuesOf_eq_singleton apart_attributes hmem hread
    cases hsame
    exact ⟨_, .read hother, .some (hrefl _)⟩
  | record hgiven hdescribed =>
    obtain ⟨other, hsame, hother⟩ :=
      hrewritten.valuesOf_eq_singleton apart_attributes hmem hgiven
    cases hsame with
    | same => exact ⟨_, .record hother hdescribed, .some (hrefl _)⟩
    | record hentries =>
      obtain ⟨t, ht, halike⟩ := hdescribed.rewrite hkeeps hentries
      exact ⟨some t, .record hother ht, .some halike⟩

/-- A record with other spellings, in another order, describes what the first one does. -/
theorem DescribedBy.rewrite (hkeeps : KeepsTexts copies alike)
    (hrewritten : Rewritten copies r others) (h : DescribedBy r f) :
    ∃ other, DescribedBy others other ∧ Alike alike f other := by
  obtain ⟨t?, hgives, halike⟩ := h.tempTable.rewrite hkeeps hrewritten
  refine ⟨{ f with tempTable := t? }, ⟨Rewrites.keepsTo apart_attributes hrewritten h.keepsTo,
    fun a ↦ ?_, hgives⟩, fun a ↦ by cases a <;> rfl, halike⟩
  have htext := (h.texts a).rewrite apart_attributes hrewritten a.mem_attributes
  cases a <;> exact htext

end Rewriting

/-- Where the copies stay as they are, both records describe the same field. -/
theorem describedBy_iff_of_rewritten {others : RawRecord} (h : Rewritten Eq r others) :
    DescribedBy r f ↔ DescribedBy others f := by
  constructor
  · intro hdescribed
    obtain ⟨other, hother, halike⟩ := hdescribed.rewrite keepsTexts_eq h
    exact halike.eq ▸ hother
  · intro hdescribed
    obtain ⟨other, hother, halike⟩ :=
      hdescribed.rewrite keepsTexts_eq (h.symm fun _ _ ↦ Eq.symm)
    exact halike.eq ▸ hother

/-! ### Attributes as configuration -/

/-- A value with the attributes of a temp table in its place. -/
def takenApart : Datum → Datum
  | .tempTable t => .record (Datum.tempTableAttributes t)
  | given => given

/-- The attributes of a field, with those of the temp table in its place. -/
def allAttributes (f : UserField) : RawRecord :=
  (Datum.fieldAttributes f).map fun entry ↦ (entry.1, takenApart entry.2)

theorem givesOptional_ofOption {r : RawRecord} {spellings : List String} {value? : Option String}
    (h : r.valuesOf spellings = [Datum.ofOption value?]) : r.GivesOptional spellings value? := by
  cases value? with
  | none => exact .null h
  | some s => exact .text h (.text s)

theorem keepsTo_attributes (f : UserField) : KeepsTo (Datum.fieldAttributes f) attributes := by
  simp only [KeepsTo, Datum.fieldAttributes, List.forall_mem_cons]
  decide

theorem describedBy_fieldAttributes (f : UserField) :
    DescribedBy (Datum.fieldAttributes f) f where
  keepsTo := keepsTo_attributes f
  texts a := givesOptional_ofOption (by cases a <;> rfl)
  tempTable := by
    have hvalues : RawRecord.valuesOf (Datum.fieldAttributes f) tempTableSpellings =
      [(f.tempTable.map Datum.tempTable).getD .null] := rfl
    cases htable : f.tempTable with
    | none => exact .null (by rw [hvalues, htable]; rfl)
    | some t => exact .read (by rw [hvalues, htable]; rfl)

theorem not_record_of_mem_fieldAttributes {entry : String × Datum}
    (hentry : entry ∈ Datum.fieldAttributes f) (entries : RawRecord) : entry.2 ≠ .record entries := by
  have htext (value? : Option String) : Datum.ofOption value? ≠ .record entries := by
    cases value? <;> exact nofun
  have htable : (f.tempTable.map Datum.tempTable).getD .null ≠ .record entries := by
    cases f.tempTable <;> exact nofun
  simp only [Datum.fieldAttributes, List.mem_cons, List.not_mem_nil, or_false] at hentry
  rcases hentry with rfl | rfl | rfl | rfl | rfl | rfl | rfl
  · exact htext _
  · exact htext _
  · exact htable
  all_goals exact htext _

theorem isMapping_fieldAttributes (f : UserField) : IsMapping (Datum.fieldAttributes f) :=
  isMapping_of_no_record (by simp [Datum.fieldAttributes]) fun _ hentry entries ↦
    not_record_of_mem_fieldAttributes hentry entries

theorem isMapping_allAttributes (f : UserField) : IsMapping (allAttributes f) := by
  refine .intro (by simp [allAttributes, Datum.fieldAttributes]) fun name entries hmem ↦ ?_
  obtain ⟨⟨other, value⟩, hentry, heq⟩ := List.mem_map.mp hmem
  have hvalue : takenApart value = .record entries := congrArg Prod.snd heq
  cases value with
  | tempTable t =>
    cases hvalue
    exact TempTable.isMapping_attributes t
  | record entries => exact absurd rfl (not_record_of_mem_fieldAttributes hentry entries)
  | _ => cases hvalue

theorem takenApart_ofOption (value? : Option String) :
    takenApart (Datum.ofOption value?) = Datum.ofOption value? := by
  cases value? <;> rfl

/-- All attributes of a field describe it, if the names of its temp table are not empty. -/
theorem describedBy_allAttributes
    (hnames : ∀ t, f.tempTable = some t → ∀ a : TempTable.NameAttribute, a.of t ≠ "") :
    DescribedBy (allAttributes f) f where
  keepsTo entry hentry := by
    obtain ⟨own, hown, rfl⟩ := List.mem_map.mp hentry
    exact keepsTo_attributes f own hown
  texts a := by
    have hvalues : (allAttributes f).valuesOf a.spellings =
        [takenApart (Datum.ofOption (a.of f))] := by
      cases a <;> rfl
    rw [takenApart_ofOption] at hvalues
    exact givesOptional_ofOption hvalues
  tempTable := by
    have hvalues : (allAttributes f).valuesOf tempTableSpellings =
      [takenApart ((f.tempTable.map Datum.tempTable).getD .null)] := rfl
    cases htable : f.tempTable with
    | none => exact .null (by rw [hvalues, htable]; rfl)
    | some t =>
      exact .record (by rw [hvalues, htable]; rfl)
        (TempTable.describedBy_attributes (hnames t htable))

/-! ### Configured fields -/

theorem ofDatum_record_eq_ok_iff (hr : r.IsMapping) (key : String) :
    ofDatum key (.record r) = .ok f ↔ DescribedBy r f := by
  rw [← ofRecord_eq_accept_iff hr]
  change (ofRecord r).result.mapError (Failure.fieldInvalid key) = .ok f ↔ _
  cases ofRecord r with
  | ok other => constructor <;> intro h <;> cases h <;> rfl
  | error issues => constructor <;> intro h <;> cases h

/-- What is refused is refused as broken configuration of the key. -/
theorem ofDatum_failure {key : String} {given : Datum} {failure : Failure}
    (h : ofDatum key given = .error failure) :
    failure.kind? = some .config ∧ failure.circumstances = .of [("key", .text key)] := by
  cases given with
  | field f => cases h
  | record entries =>
    change (ofRecord entries).result.mapError (Failure.fieldInvalid key) = .error failure at h
    cases hread : ofRecord entries with
    | ok f =>
      rw [hread] at h
      cases h
    | error issues =>
      rw [hread] at h
      cases h
      exact ⟨rfl, rfl⟩
  | _ =>
    cases h
    exact ⟨rfl, rfl⟩

end Described

end UserField

end StagedColumns
