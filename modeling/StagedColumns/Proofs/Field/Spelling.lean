import Mathlib.Data.List.Perm.Basic
import StagedColumns.Field.Reader
import StagedColumns.Proofs.Checked
import StagedColumns.Proofs.OrderedMap

/-!
# Attributes under several spellings

What a record gives for an attribute are the values of all its spellings (`valuesOf`). A record is
left without remains exactly if all its names are spellings of attributes and no attribute is given
twice (`leftOver_eq_nil_iff`), and then the spelling that is read is the only one there is. What a
record gives depends neither on the order of its entries nor on the spellings that were chosen
(`Rewrites`).
-/

set_option autoImplicit false

namespace StagedColumns

namespace RawRecord

/-- No two entries of the record have one name, and the same is true of the records in it. -/
inductive IsMapping : RawRecord → Prop
  | intro {r : RawRecord} (distinct : (r.map Prod.fst).Nodup)
      (inner : ∀ name entries, (name, Datum.record entries) ∈ r → IsMapping entries) : IsMapping r

theorem IsMapping.nodup {r : RawRecord} (h : r.IsMapping) : (r.map Prod.fst).Nodup := by
  cases h with
  | intro distinct inner => exact distinct

theorem IsMapping.of_mem {r : RawRecord} (h : r.IsMapping) {name : String}
    {entries : List (String × Datum)} (hmem : (name, Datum.record entries) ∈ r) :
    IsMapping entries := by
  cases h with
  | intro distinct inner => exact inner name entries hmem

/-- A record without records in it is a mapping if its names are different. -/
theorem isMapping_of_no_record {r : RawRecord} (hdistinct : (r.map Prod.fst).Nodup)
    (hnone : ∀ entry ∈ r, ∀ entries, entry.2 ≠ Datum.record entries) : r.IsMapping :=
  .intro hdistinct fun _ entries hmem ↦ absurd rfl (hnone _ hmem entries)

/-- The values that the record has under any of the spellings. -/
def valuesOf (r : RawRecord) (spellings : List String) : List Datum :=
  (r.filter fun entry ↦ entry.1 ∈ spellings).map Prod.snd

/-- Every name in the record is a spelling of one of the attributes. -/
def KeepsTo (r : RawRecord) (attributes : List (List String)) : Prop :=
  ∀ entry ∈ r, ∃ spellings ∈ attributes, entry.1 ∈ spellings

/-- No two of the attributes have a spelling in common. -/
def Apart (attributes : List (List String)) : Prop :=
  ∀ spellings ∈ attributes, ∀ others ∈ attributes, ∀ name ∈ spellings, name ∈ others →
    spellings = others

instance (attributes : List (List String)) : Decidable (Apart attributes) :=
  inferInstanceAs (Decidable (∀ spellings ∈ attributes, ∀ others ∈ attributes, ∀ name ∈ spellings,
    name ∈ others → spellings = others))

section Spellings

variable {r : RawRecord} {spellings : List String} {name : String} {value : Datum}

theorem mem_valuesOf : value ∈ r.valuesOf spellings ↔ ∃ name ∈ spellings, (name, value) ∈ r := by
  simp [valuesOf, and_comm]

theorem mem_of_spelled? (h : r.spelled? spellings = some (name, value)) :
    name ∈ spellings ∧ (name, value) ∈ r := by
  induction spellings with
  | nil => cases h
  | cons first others ih =>
    rw [spelled?] at h
    cases hlookup : r.lookup first with
    | some found =>
      rw [hlookup] at h
      cases h
      exact ⟨List.mem_cons_self, mem_of_lookup_eq_some hlookup⟩
    | none =>
      rw [hlookup] at h
      obtain ⟨hname, hmem⟩ := ih h
      exact ⟨List.mem_cons_of_mem _ hname, hmem⟩

theorem spelled?_eq_none_iff : r.spelled? spellings = none ↔ r.valuesOf spellings = [] := by
  rw [List.eq_nil_iff_forall_not_mem]
  constructor
  · intro h value hvalue
    obtain ⟨name, hname, hmem⟩ := mem_valuesOf.mp hvalue
    induction spellings with
    | nil => cases hname
    | cons first others ih =>
      rw [spelled?] at h
      cases hlookup : r.lookup first with
      | some found =>
        rw [hlookup] at h
        cases h
      | none =>
        rw [hlookup] at h
        rcases List.mem_cons.mp hname with rfl | hname
        · have hsome := lookup_isSome_iff_mem.mpr (List.mem_map_of_mem hmem)
          simp only at hsome
          rw [hlookup] at hsome
          cases hsome
        · exact ih h (mem_valuesOf.mpr ⟨name, hname, hmem⟩) hname
  · intro h
    cases hspelled : r.spelled? spellings with
    | none => rfl
    | some entry =>
      obtain ⟨hname, hmem⟩ := mem_of_spelled? hspelled
      exact absurd (mem_valuesOf.mpr ⟨entry.1, hname, hmem⟩) (h entry.2)

/-- An attribute that is given at most once is read as what is given for it, if anything is. -/
theorem spelled?_cases (honce : (r.valuesOf spellings).length ≤ 1) :
    (r.spelled? spellings = none ∧ r.valuesOf spellings = []) ∨
      ∃ name value, r.spelled? spellings = some (name, value) ∧ r.valuesOf spellings = [value] ∧
        (name, value) ∈ r := by
  cases hspelled : r.spelled? spellings with
  | none => exact .inl ⟨rfl, spelled?_eq_none_iff.mp hspelled⟩
  | some entry =>
    obtain ⟨name, value⟩ := entry
    obtain ⟨hname, hmem⟩ := mem_of_spelled? hspelled
    have hvalue : value ∈ r.valuesOf spellings := mem_valuesOf.mpr ⟨name, hname, hmem⟩
    obtain ⟨only, honly⟩ := List.length_eq_one_iff.mp
      (Nat.le_antisymm honce (List.length_pos_of_mem hvalue))
    rw [honly, List.mem_singleton] at hvalue
    exact .inr ⟨name, value, rfl, by rw [honly, hvalue], hmem⟩

/-- The entries with spellings of an attribute are at most one if they all have the same name. -/
theorem length_valuesOf_le_one (name : String) (hdistinct : (r.map Prod.fst).Nodup)
    (h : ∀ entry ∈ r, entry.1 ∈ spellings → entry.1 = name) :
    (r.valuesOf spellings).length ≤ 1 := by
  have hnames : (r.filter fun entry ↦ entry.1 ∈ spellings).map Prod.fst =
      List.replicate (r.valuesOf spellings).length name := by
    rw [List.eq_replicate_iff]
    simp only [valuesOf, List.length_map, List.mem_map, List.mem_filter, decide_eq_true_eq]
    refine ⟨trivial, ?_⟩
    rintro other ⟨entry, ⟨hmem, hspelling⟩, rfl⟩
    exact h entry hmem hspelling
  have hsublist : (r.filter fun entry ↦ entry.1 ∈ spellings).Sublist r := List.filter_sublist
  have hnodup := (hsublist.map Prod.fst).nodup hdistinct
  rw [hnames] at hnodup
  exact List.nodup_replicate.mp hnodup

end Spellings

/-- Nothing is left of a record exactly if all its names are spellings of the attributes and none of
these is given twice. -/
theorem leftOver_eq_nil_iff {r : RawRecord} {attributes : List (List String)}
    (hdistinct : (r.map Prod.fst).Nodup) (hapart : Apart attributes) :
    r.leftOver attributes = [] ↔ r.KeepsTo attributes ∧
      ∀ spellings ∈ attributes, (r.valuesOf spellings).length ≤ 1 := by
  have hread : r.leftOver attributes = [] ↔ ∀ entry ∈ r, ∃ spellings ∈ attributes, ∃ value,
      r.spelled? spellings = some (entry.1, value) := by
    simp [leftOver]
  rw [hread]
  constructor
  · intro h
    refine ⟨fun entry hentry ↦ ?_, fun spellings hspellings ↦ ?_⟩
    · obtain ⟨spellings, hspellings, value, hspelled⟩ := h entry hentry
      exact ⟨spellings, hspellings, (mem_of_spelled? hspelled).1⟩
    · cases hspelled : r.spelled? spellings with
      | none =>
        rw [spelled?_eq_none_iff.mp hspelled]
        exact Nat.zero_le 1
      | some found =>
        refine length_valuesOf_le_one found.1 hdistinct fun entry hentry hname ↦ ?_
        obtain ⟨others, hothers, value, hother⟩ := h entry hentry
        -- the attribute that the name was read for is the one that it is a spelling of
        rw [hapart others hothers spellings hspellings _ (mem_of_spelled? hother).1 hname,
          hspelled] at hother
        cases hother
        rfl
  · rintro ⟨hkeeps, honce⟩ entry hentry
    obtain ⟨spellings, hspellings, hname⟩ := hkeeps entry hentry
    have hlength := honce spellings hspellings
    rcases spelled?_cases hlength with ⟨-, hvalues⟩ | ⟨name, value, hspelled, -, hread⟩
    · have hvalue : entry.2 ∈ r.valuesOf spellings := mem_valuesOf.mpr ⟨entry.1, hname, hentry⟩
      rw [hvalues] at hvalue
      cases hvalue
    · -- both entries have a spelling of the attribute, and only one entry has
      have hmem : entry ∈ r.filter fun entry ↦ entry.1 ∈ spellings :=
        List.mem_filter.mpr ⟨hentry, decide_eq_true hname⟩
      have hother : (name, value) ∈ r.filter fun entry ↦ entry.1 ∈ spellings :=
        List.mem_filter.mpr ⟨hread, decide_eq_true (mem_of_spelled? hspelled).1⟩
      rw [valuesOf, List.length_map] at hlength
      obtain ⟨only, honly⟩ := List.length_eq_one_iff.mp
        (Nat.le_antisymm hlength (List.length_pos_of_mem hmem))
      rw [honly, List.mem_singleton] at hmem hother
      exact ⟨spellings, hspellings, value, by rw [hspelled, hmem, ← hother]⟩

/-! ### Values -/

/-- The record gives a text for an attribute, or leaves it out or gives the absent value. -/
inductive GivesOptional (r : RawRecord) (spellings : List String) : Option String → Prop
  | leftOut (h : r.valuesOf spellings = []) : GivesOptional r spellings none
  | null (h : r.valuesOf spellings = [.null]) : GivesOptional r spellings none
  | text {given : Datum} {s : String} (h : r.valuesOf spellings = [given])
      (hspells : given.Spells s) : GivesOptional r spellings (some s)

/-- The record gives a text that is not empty for an attribute. -/
def GivesName (r : RawRecord) (spellings : List String) (s : String) : Prop :=
  ∃ given, r.valuesOf spellings = [given] ∧ given.Spells s ∧ s ≠ ""

/-- The entries give the texts, name by name. -/
def SpellsTexts (columns : RawRecord) (texts : List (String × String)) : Prop :=
  List.Forall₂ (fun entry copy ↦ entry.1 = copy.1 ∧ entry.2.Spells copy.2) columns texts

/-- The record gives a record of texts for an attribute, or leaves it out. -/
inductive GivesTexts (r : RawRecord) (spellings : List String) : OrderedMap String → Prop
  | leftOut (h : r.valuesOf spellings = []) : GivesTexts r spellings .empty
  | record {columns : RawRecord} {texts : OrderedMap String}
      (h : r.valuesOf spellings = [.record columns]) (hspells : columns.SpellsTexts texts.entries) :
      GivesTexts r spellings texts

section Values

variable {r : RawRecord} {spellings : List String}

theorem GivesOptional.length_le {value? : Option String} (h : r.GivesOptional spellings value?) :
    (r.valuesOf spellings).length ≤ 1 := by
  cases h <;> simp [*]

theorem GivesTexts.length_le {texts : OrderedMap String} (h : r.GivesTexts spellings texts) :
    (r.valuesOf spellings).length ≤ 1 := by
  cases h <;> simp [*]

theorem GivesName.length_le {s : String} (h : r.GivesName spellings s) :
    (r.valuesOf spellings).length ≤ 1 := by
  obtain ⟨given, h, -, -⟩ := h
  simp [h]

theorem readName_eq_accept_iff (honce : (r.valuesOf spellings).length ≤ 1) {s : String} :
    r.readName spellings = .accept s ↔ r.GivesName spellings s := by
  unfold readName GivesName
  rcases spelled?_cases honce with ⟨hspelled, hvalues⟩ | ⟨name, value, hspelled, hvalues, -⟩
  · rw [hspelled, hvalues]
    exact iff_of_false nofun nofun
  · simp only [hspelled, hvalues, List.singleton_inj, exists_eq_left', ← Datum.readText_eq_ok_iff]
    cases value.readText with
    | error rule => simp
    | ok other =>
      by_cases hempty : other = ""
      · simp only [if_pos hempty]
        refine iff_of_false nofun ?_
        rintro ⟨hother, hs⟩
        exact hs (Except.ok.inj hother ▸ hempty)
      · simp only [if_neg hempty, Checked.accept_inj, Except.ok.injEq]
        exact ⟨fun h ↦ ⟨h, h ▸ hempty⟩, And.left⟩

/-- A value that is not the absent one has to be a text. -/
theorem readOptional_of_ne_null {name : String} {value : Datum}
    (h : r.spelled? spellings = some (name, value)) (hnull : value ≠ .null) :
    r.readOptional spellings = (Checked.text [name] value).map some := by
  unfold readOptional
  rw [h]
  cases value with
  | null => exact absurd rfl hnull
  | _ => rfl

theorem readOptional_eq_accept_iff (honce : (r.valuesOf spellings).length ≤ 1)
    {value? : Option String} :
    r.readOptional spellings = .accept value? ↔ r.GivesOptional spellings value? := by
  rcases spelled?_cases honce with ⟨hspelled, hvalues⟩ | ⟨name, value, hspelled, hvalues, -⟩
  · simp only [readOptional, hspelled, Checked.accept_inj]
    constructor
    · rintro rfl
      exact .leftOut hvalues
    · rintro (_ | _ | ⟨h, -⟩)
      · rfl
      · rfl
      · cases hvalues.symm.trans h
  by_cases hnull : value = .null
  · subst hnull
    simp only [readOptional, hspelled, Checked.accept_inj]
    constructor
    · rintro rfl
      exact .null hvalues
    · rintro (_ | _ | ⟨h, hspells⟩)
      · rfl
      · rfl
      · cases hvalues.symm.trans h
        cases hspells
  · rw [readOptional_of_ne_null hspelled hnull, Checked.map_eq_accept_iff]
    simp only [Checked.text_eq_accept_iff]
    constructor
    · rintro ⟨s, hspells, rfl⟩
      exact .text hvalues hspells
    · rintro (h | h | ⟨h, hspells⟩)
      · cases hvalues.symm.trans h
      · cases hvalues.symm.trans h
        exact absurd rfl hnull
      · cases hvalues.symm.trans h
        exact ⟨_, hspells, rfl⟩

theorem SpellsTexts.names_eq {columns : RawRecord} {texts : List (String × String)}
    (h : columns.SpellsTexts texts) : columns.map Prod.fst = texts.map Prod.fst := by
  induction h with
  | nil => rfl
  | cons hentry _ ih => rw [List.map_cons, List.map_cons, hentry.1, ih]

theorem readTexts_eq_accept_iff {columns : RawRecord} {texts : List (String × String)} :
    readTexts columns = .accept texts ↔ columns.SpellsTexts texts := by
  induction columns generalizing texts with
  | nil =>
    rw [readTexts, Checked.accept_inj, SpellsTexts, List.forall₂_nil_left_iff, eq_comm]
  | cons entry rest ih =>
    obtain ⟨name, value⟩ := entry
    simp only [readTexts, Checked.apply_eq_accept_iff, Checked.map_eq_accept_iff,
      Checked.text_eq_accept_iff, ih, SpellsTexts, List.forall₂_cons_left_iff]
    constructor
    · rintro ⟨f, others, ⟨s, hspells, rfl⟩, hothers, rfl⟩
      exact ⟨(name, s), others, ⟨rfl, hspells⟩, hothers, rfl⟩
    · rintro ⟨⟨_, s⟩, others, ⟨rfl, hspells⟩, hothers, rfl⟩
      exact ⟨_, others, ⟨s, hspells, rfl⟩, hothers, rfl⟩

end Values

/-! ### Other orders and spellings -/

/-- The values are the same, or they are records that stand in the relation. -/
inductive SameOr (related : RawRecord → RawRecord → Prop) : Datum → Datum → Prop
  | same (given : Datum) : SameOr related given given
  | record {entries others : RawRecord} (h : related entries others) :
      SameOr related (.record entries) (.record others)

/-- The names are the same or spellings of one attribute, and the values stand in the relation. -/
def SpelledLike (attributes : List (List String)) (values : Datum → Datum → Prop)
    (entry other : String × Datum) : Prop :=
  (entry.1 = other.1 ∨ ∃ spellings ∈ attributes, entry.1 ∈ spellings ∧ other.1 ∈ spellings) ∧
    values entry.2 other.2

/-- The second record has the entries of the first one in any order and each under any spelling of
its name, with values that stand in the relation. -/
def Rewrites (attributes : List (List String)) (values : Datum → Datum → Prop)
    (r others : RawRecord) : Prop :=
  ∃ middle, List.Forall₂ (SpelledLike attributes values) r middle ∧ middle.Perm others

section Rewriting

variable {attributes : List (List String)} {values : Datum → Datum → Prop} {r others : RawRecord}
variable {spellings : List String}

theorem SameOr.symm {related : RawRecord → RawRecord → Prop}
    (hrelated : ∀ entries others, related entries others → related others entries)
    {given other : Datum} (h : SameOr related given other) : SameOr related other given := by
  cases h with
  | same => exact .same given
  | record h => exact .record (hrelated _ _ h)

/-- A text stands in the relation to itself only. -/
theorem SameOr.eq_of_spells {related : RawRecord → RawRecord → Prop} {given other : Datum}
    (h : SameOr related given other) {s : String} (hspells : given.Spells s) : given = other := by
  cases h with
  | same => rfl
  | record => cases hspells

theorem Rewrites.symm (hvalues : ∀ given other, values given other → values other given)
    (h : r.Rewrites attributes values others) : others.Rewrites attributes values r := by
  obtain ⟨middle, hspelled, hperm⟩ := h
  have hback : List.Forall₂ (SpelledLike attributes values) middle r := by
    refine (hspelled.imp fun entry other hlike ↦ ?_).flip
    obtain ⟨hnames, hvalue⟩ := hlike
    refine ⟨?_, hvalues _ _ hvalue⟩
    rcases hnames with heq | ⟨spellings, hspellings, hentry, hother⟩
    · exact .inl heq.symm
    · exact .inr ⟨spellings, hspellings, hother, hentry⟩
  exact List.perm_comp_forall₂ hperm.symm hback

/-- The names that are spellings of an attribute stay its spellings. -/
theorem SpelledLike.mem_iff (hapart : Apart attributes) (hspellings : spellings ∈ attributes)
    {entry other : String × Datum} (h : SpelledLike attributes values entry other) :
    entry.1 ∈ spellings ↔ other.1 ∈ spellings := by
  obtain ⟨heq | ⟨own, hown, hentry, hother⟩, -⟩ := h
  · rw [heq]
  · constructor
    · intro hmem
      rwa [hapart spellings hspellings own hown _ hmem hentry]
    · intro hmem
      rwa [hapart spellings hspellings own hown _ hmem hother]

theorem Rewrites.keepsTo (hapart : Apart attributes) (h : r.Rewrites attributes values others)
    (hkeeps : r.KeepsTo attributes) : others.KeepsTo attributes := by
  obtain ⟨middle, hspelled, hperm⟩ := h
  have hmiddle : List.Forall₂ (fun other entry ↦
      (∃ spellings ∈ attributes, other.1 ∈ spellings) ∧ SpelledLike attributes values entry other)
      middle r := by
    refine (((List.forall₂_and_left r middle).mpr ⟨hkeeps, hspelled⟩).imp ?_).flip
    rintro entry other ⟨⟨spellings, hspellings, hname⟩, hlike⟩
    exact ⟨⟨spellings, hspellings, (hlike.mem_iff hapart hspellings).mp hname⟩, hlike⟩
  exact fun entry hentry ↦
    ((List.forall₂_and_left middle r).mp hmiddle).1 entry (hperm.mem_iff.mpr hentry)

/-- For each attribute the records give values that stand in the relation. -/
theorem Rewrites.valuesOf (hapart : Apart attributes) (h : r.Rewrites attributes values others)
    (hspellings : spellings ∈ attributes) :
    ∃ middle, List.Forall₂ values (r.valuesOf spellings) middle ∧
      middle.Perm (others.valuesOf spellings) := by
  obtain ⟨middle, hspelled, hperm⟩ := h
  refine ⟨RawRecord.valuesOf middle spellings, ?_, (hperm.filter _).map _⟩
  have hfiltered := List.rel_filter (p := fun entry ↦ decide (entry.1 ∈ spellings))
    (q := fun entry ↦ decide (entry.1 ∈ spellings))
    (fun entry other (hlike : SpelledLike attributes values entry other) ↦ by
      simpa using hlike.mem_iff hapart hspellings) hspelled
  exact List.rel_map (fun entry other hlike ↦ hlike.2) hfiltered

theorem Rewrites.valuesOf_eq_nil (hapart : Apart attributes)
    (h : r.Rewrites attributes values others) (hspellings : spellings ∈ attributes)
    (hnone : r.valuesOf spellings = []) : others.valuesOf spellings = [] := by
  obtain ⟨middle, hvalues, hperm⟩ := h.valuesOf hapart hspellings
  rw [hnone, List.forall₂_nil_left_iff] at hvalues
  rw [hvalues] at hperm
  exact List.nil_perm.mp hperm

theorem Rewrites.valuesOf_eq_singleton (hapart : Apart attributes)
    (h : r.Rewrites attributes values others) (hspellings : spellings ∈ attributes)
    {given : Datum} (hgiven : r.valuesOf spellings = [given]) :
    ∃ other, values given other ∧ others.valuesOf spellings = [other] := by
  obtain ⟨middle, hvalues, hperm⟩ := h.valuesOf hapart hspellings
  rw [hgiven, List.forall₂_cons_left_iff] at hvalues
  obtain ⟨other, rest, hother, hrest, rfl⟩ := hvalues
  rw [List.forall₂_nil_left_iff.mp hrest] at hperm
  exact ⟨other, hother, (List.singleton_perm.mp hperm).symm⟩

theorem GivesOptional.rewrite {related : RawRecord → RawRecord → Prop} (hapart : Apart attributes)
    (h : r.Rewrites attributes (SameOr related) others) (hspellings : spellings ∈ attributes)
    {value? : Option String} (hgives : r.GivesOptional spellings value?) :
    others.GivesOptional spellings value? := by
  cases hgives with
  | leftOut hnone => exact .leftOut (h.valuesOf_eq_nil hapart hspellings hnone)
  | null hnull =>
    obtain ⟨other, hsame, hother⟩ := h.valuesOf_eq_singleton hapart hspellings hnull
    cases hsame
    exact .null hother
  | text hgiven hspells =>
    obtain ⟨other, hsame, hother⟩ := h.valuesOf_eq_singleton hapart hspellings hgiven
    exact .text hother (hsame.eq_of_spells hspells ▸ hspells)

theorem GivesName.rewrite {related : RawRecord → RawRecord → Prop} (hapart : Apart attributes)
    (h : r.Rewrites attributes (SameOr related) others) (hspellings : spellings ∈ attributes)
    {s : String} (hgives : r.GivesName spellings s) : others.GivesName spellings s := by
  obtain ⟨given, hgiven, hspells, hne⟩ := hgives
  obtain ⟨other, hsame, hother⟩ := h.valuesOf_eq_singleton hapart hspellings hgiven
  exact ⟨other, hother, hsame.eq_of_spells hspells ▸ hspells, hne⟩

/-- Records that stand in the first relation give texts that stand in the second one. -/
structure KeepsTexts (related : RawRecord → RawRecord → Prop)
    (alike : List (String × String) → List (String × String) → Prop) : Prop where
  refl : ∀ texts, alike texts texts
  exists_texts : ∀ {columns otherColumns : RawRecord} {texts : OrderedMap String},
    related columns otherColumns → columns.SpellsTexts texts.entries →
    ∃ otherTexts : OrderedMap String, otherColumns.SpellsTexts otherTexts.entries ∧
      alike texts.entries otherTexts.entries

theorem keepsTexts_eq : KeepsTexts Eq Eq where
  refl _ := rfl
  exists_texts := by
    rintro columns _ texts rfl hspells
    exact ⟨texts, hspells, rfl⟩

theorem keepsTexts_perm : KeepsTexts List.Perm List.Perm where
  refl := List.Perm.refl
  exists_texts := by
    intro columns otherColumns texts hperm hspells
    obtain ⟨otherTexts, hother, hreordered⟩ := List.perm_comp_forall₂ hperm.symm hspells
    exact ⟨⟨otherTexts, (hreordered.map Prod.fst).nodup_iff.mpr texts.distinct⟩, hother,
      hreordered.symm⟩

theorem GivesTexts.rewrite {related : RawRecord → RawRecord → Prop}
    {alike : List (String × String) → List (String × String) → Prop}
    (hkeeps : KeepsTexts related alike) (hapart : Apart attributes)
    (h : r.Rewrites attributes (SameOr related) others) (hspellings : spellings ∈ attributes)
    {texts : OrderedMap String} (hgives : r.GivesTexts spellings texts) :
    ∃ otherTexts : OrderedMap String, others.GivesTexts spellings otherTexts ∧
      alike texts.entries otherTexts.entries := by
  cases hgives with
  | leftOut hnone =>
    exact ⟨.empty, .leftOut (h.valuesOf_eq_nil hapart hspellings hnone), hkeeps.refl _⟩
  | record hgiven hspells =>
    obtain ⟨other, hsame, hother⟩ := h.valuesOf_eq_singleton hapart hspellings hgiven
    cases hsame with
    | same => exact ⟨texts, .record hother hspells, hkeeps.refl _⟩
    | record hrelated =>
      obtain ⟨otherTexts, hotherTexts, halike⟩ := hkeeps.exists_texts hrelated hspells
      exact ⟨otherTexts, .record hother hotherTexts, halike⟩

end Rewriting

end RawRecord

end StagedColumns
