import Mathlib.Logic.Function.Basic
import StagedColumns.Failure.Report
import StagedColumns.Proofs.OrderedMap
import StagedColumns.Proofs.Signature

/-!
# What is added to the circumstances of a failure

Circumstances are listed with the metadata over the listed places. A value that is added under a
name shows in the listing from then on, unless the name is one that circumstances have of themselves
(then the value is refused, or stays in a place that is not listed), or that of a listed place while
the metadata have it too (then the metadata hide the value). For all other names the last value that
is added counts (`Intact.addAll`).
-/

set_option autoImplicit false

namespace StagedColumns

/-! ### Listings with texts as names -/

theorem Datum.same_text_iff (d : Datum) (s : String) : d.same (.text s) = true ↔ d = .text s := by
  cases d <;> simp [Datum.same, Datum.integer?]

/-- The first value under a name. -/
def findNamed (name : String) (entries : List (Datum × Datum)) : Option Datum :=
  (entries.find? fun entry ↦ entry.1.same (.text name)).map Prod.snd

theorem findNamed_cons (name : String) (entry : Datum × Datum) (rest : List (Datum × Datum)) :
    findNamed name (entry :: rest) =
      if entry.1.same (.text name) then some entry.2 else findNamed name rest := by
  unfold findNamed
  rw [List.find?_cons]
  cases entry.1.same (.text name) <;> rfl

theorem findNamed_putNamed (name other : String) (value : Datum) (entries : List (Datum × Datum)) :
    findNamed other (putNamed (.text name) value entries) =
      if other = name then some value else findNamed other entries := by
  have hname : (Datum.text name).same (.text other) = true ↔ other = name := by
    rw [Datum.same_text_iff, Datum.text.injEq, eq_comm]
  induction entries with
  | nil =>
    rw [putNamed, findNamed_cons]
    simp only [hname]
  | cons entry rest ih =>
    rw [putNamed]
    split
    · next hentry =>
      rw [Datum.same_text_iff] at hentry
      rw [findNamed_cons, findNamed_cons, hentry]
      simp only [hname]
      split <;> rfl
    · next hentry =>
      rw [findNamed_cons, findNamed_cons, ih]
      by_cases hother : other = name
      · rw [if_pos hother, if_pos hother, if_neg (hother ▸ hentry)]
      · rw [if_neg hother, if_neg hother]

theorem Listing.get?_put_text (l : Listing) (name other : String) (value : Datum) :
    (l.put (.text name) value).get? (.text other) =
      if other = name then some value else l.get? (.text other) :=
  findNamed_putNamed name other value l.entries

/-- A listing is written like a map. -/
theorem Listing.get?_putAll_namedByTexts {l : Listing} {m : OrderedMap Datum}
    (h : ∀ name, l.get? (.text name) = m.get? name) (entries : List (String × Datum))
    (name : String) :
    (l.putAll (Datum.namedByTexts entries)).get? (.text name) = (m.putAll entries).get? name := by
  induction entries generalizing l m with
  | nil => exact h name
  | cons entry rest ih =>
    refine ih (fun other ↦ ?_)
    rw [Listing.get?_put_text, OrderedMap.get?_put, h]

namespace Circumstances

/-! ### What is listed -/

/-- The value in a place, unless it is the absent one. -/
def value? (c : Circumstances) (name : String) : Option Datum :=
  match c.places.get? name with
  | .none | some .null => .none
  | some value => some value

/-- The value that is shown under a name, if there are the metadata. -/
def shown? (c : Circumstances) (metadata : OrderedMap Datum) (name : String) : Option Datum :=
  (metadata.get? name).or (if name ∈ listedNames then c.value? name else .none)

theorem lookup_filterMap_map (f : String → Option Datum) (names : List String) (name : String) :
    (names.filterMap fun own ↦ (f own).map (own, ·)).lookup name =
      if name ∈ names then f name else .none := by
  induction names with
  | nil => rfl
  | cons own rest ih =>
    cases hown : f own with
    | none =>
      rw [List.filterMap_cons_none (by rw [hown]; rfl), ih]
      by_cases hname : name = own
      · subst hname
        simp [hown]
      · simp [hname]
    | some value =>
      rw [List.filterMap_cons_some (by rw [hown]; rfl), lookup_entry_cons, ih]
      by_cases hname : name = own
      · subst hname
        simp [hown]
      · simp [hname]

theorem sublist_filterMap_map (f : String → Option Datum) (names : List String) :
    ((names.filterMap fun own ↦ (f own).map (own, ·)).map Prod.fst).Sublist names := by
  induction names with
  | nil => exact .slnil
  | cons own rest ih =>
    cases hown : f own with
    | none =>
      rw [List.filterMap_cons_none (by rw [hown]; rfl)]
      exact .cons own ih
    | some value =>
      rw [List.filterMap_cons_some (by rw [hown]; rfl)]
      exact .cons_cons own ih

theorem listedPlaces_eq (c : Circumstances) :
    c.listedPlaces = listedNames.filterMap fun name ↦ (c.value? name).map (name, ·) := by
  unfold listedPlaces value?
  refine List.filterMap_congr fun name _ ↦ ?_
  split <;> simp_all

theorem get?_ofList_listedPlaces (c : Circumstances) (name : String) :
    (OrderedMap.ofList c.listedPlaces).get? name =
      if name ∈ listedNames then c.value? name else .none := by
  have hnames : (c.listedPlaces.map Prod.fst).Nodup := by
    rw [listedPlaces_eq]
    exact (sublist_filterMap_map c.value? listedNames).nodup (by decide)
  rw [OrderedMap.get?_ofList hnames, listedPlaces_eq, lookup_filterMap_map]

/-- Circumstances with a record of metadata that can be listed: nothing stands in the way of the
listing, and there are no places but those that circumstances have of themselves. -/
structure Intact (c : Circumstances) (metadata : OrderedMap Datum) : Prop where
  listing : c.places.get? listingName = .none
  metadata : c.places.get? metadataName = some (.record metadata.entries)
  known {name : String} : c.places.contains name = true → name = metadataName ∨ name ∈ firstNames

variable {c : Circumstances} {metadata : OrderedMap Datum} {name : String}

/-- Intact circumstances are listed, with what is shown. -/
theorem Intact.listing_eq (h : c.Intact metadata) :
    ∃ l, c.listing = .ok l ∧ ∀ name, l.get? (.text name) = c.shown? metadata name := by
  have hmetadata : c.metadata = .ok (Datum.namedByTexts metadata.entries) := by
    unfold Circumstances.metadata
    rw [h.metadata]
    cases hentries : metadata.entries with
    | nil => rfl
    | cons entry rest => rfl
  refine ⟨_, by rw [Circumstances.listing, h.listing, hmetadata]; rfl, fun name ↦ ?_⟩
  have hplaces := Listing.get?_putAll_namedByTexts (l := .empty) (m := .empty) (fun _ ↦ rfl)
    c.listedPlaces
  rw [Listing.get?_putAll_namedByTexts hplaces, shown?, ← get?_ofList_listedPlaces]
  exact OrderedMap.get?_merge _ metadata name

/-! ### What is added -/

theorem mem_firstNames_of_listed (hname : name ∈ listedNames) : name ∈ firstNames :=
  List.mem_append_left _ (List.mem_append_left _ hname)

theorem ne_listingName (hname : name ∈ listedNames) : name ≠ listingName := by
  rintro rfl
  exact absurd hname (by decide)

theorem ne_metadataName (hname : name ∈ firstNames) : name ≠ metadataName := by
  rintro rfl
  exact absurd hname (by decide)

theorem hasPlace_of_mem (hname : name ∈ firstNames) : c.hasPlace name = true := by
  simp [hasPlace, hname, ne_metadataName hname]

/-- A name that circumstances do not have of themselves goes into the metadata. -/
theorem Intact.hasPlace_eq_false (h : c.Intact metadata) (hname : name ∉ firstNames) :
    c.hasPlace name = false := by
  by_cases hmetadata : name = metadataName
  · simp [hasPlace, hmetadata]
  · have hplaces : c.places.contains name = false := by
      refine Bool.eq_false_iff.mpr fun hplace ↦ ?_
      exact (h.known hplace).elim hmetadata hname
    simp [hasPlace, hname, hplaces]

/-- The circumstances with a value in a place. -/
def fill (c : Circumstances) (name : String) (value : Datum) : Circumstances :=
  ⟨c.places.put name value⟩

theorem Intact.add_metadata (h : c.Intact metadata) (hname : name ∉ firstNames) (value : Datum) :
    c.add name value =
      .ok (c.fill metadataName (.record (metadata.put name value).entries)) := by
  rw [add, h.hasPlace_eq_false hname, addMetadata, h.metadata]
  rfl

theorem add_listed (hname : name ∈ listedNames) (value : Datum) :
    c.add name value = .ok (c.fill name value) := by
  have hfirst : name ∈ firstNames := mem_firstNames_of_listed hname
  have hplain : Datum.placeRefusal? typeName name value = .none ∧ name ≠ Datum.placesAttribute := by
    simp only [listedNames, List.mem_cons, List.not_mem_nil, or_false] at hname
    rcases hname with rfl | rfl | rfl | rfl <;> exact ⟨rfl, by decide⟩
  have hfill : Datum.fillPlace c.places name value = c.places.put name value := by
    unfold Datum.fillPlace
    split
    · rw [if_neg hplain.2]
    · rfl
  rw [add, if_pos (hasPlace_of_mem hfirst), hplain.1]
  exact congrArg _ (congrArg _ hfill)

theorem addAll_singleton (c : Circumstances) (name : String) (value : Datum) :
    c.addAll [(name, value)] = c.add name value := by
  rw [addAll]
  cases c.add name value <;> rfl

/-- A value that stands in the way of the listing. -/
theorem listing_of_fill (c : Circumstances) (value : Datum) :
    (c.fill listingName value).listing = .error (.notAnswering value.typeName) := by
  rw [listing, fill, OrderedMap.get?_put_self]

/-- A text under a name that circumstances have of themselves is refused or put in a place. -/
theorem add_text_first (hname : name ∈ firstNames) (text : String) :
    (∃ failure, c.add name (.text text) = .error failure) ∨
      c.add name (.text text) = .ok (c.fill name (.text text)) := by
  rw [add, if_pos (hasPlace_of_mem hname)]
  cases hrefusal : Datum.placeRefusal? typeName name (.text text) with
  | some failure => exact .inl ⟨failure, rfl⟩
  | none => exact .inr rfl

theorem Intact.fill_metadata (h : c.Intact metadata) (later : OrderedMap Datum) :
    (c.fill metadataName (.record later.entries)).Intact later where
  listing := by
    rw [fill, OrderedMap.get?_put, if_neg (by decide), h.listing]
  metadata := OrderedMap.get?_put_self _ _ _
  known {other} hother := by
    rw [fill, OrderedMap.contains, OrderedMap.get?_put] at hother
    by_cases heq : other = metadataName
    · exact .inl heq
    · rw [if_neg heq] at hother
      exact h.known hother

theorem Intact.fill_first (h : c.Intact metadata) (hname : name ∈ firstNames)
    (hlisting : name ≠ listingName) (value : Datum) : (c.fill name value).Intact metadata where
  listing := by
    rw [fill, OrderedMap.get?_put, if_neg (Ne.symm hlisting), h.listing]
  metadata := by
    rw [fill, OrderedMap.get?_put, if_neg (ne_metadataName hname).symm, h.metadata]
  known {other} hother := by
    rw [fill, OrderedMap.contains, OrderedMap.get?_put] at hother
    by_cases heq : other = name
    · exact .inr (heq ▸ hname)
    · rw [if_neg heq] at hother
      exact h.known hother

theorem value?_fill_of_ne {other : String} (hother : other ≠ name) (value : Datum) :
    (c.fill name value).value? other = c.value? other := by
  rw [value?, fill, OrderedMap.get?_put, if_neg hother]
  rfl

theorem value?_fill_self {value : Datum} (hvalue : value ≠ .null) :
    (c.fill name value).value? name = some value := by
  rw [value?, fill, OrderedMap.get?_put_self]
  split
  · next hnone => cases hnone
  · next hnull => exact absurd (Option.some.inj hnull) hvalue
  · next other _ hsome => exact hsome.symm

/-- A value in the metadata is shown under its name. -/
theorem shown?_put_metadata (c : Circumstances) (metadata : OrderedMap Datum) (name : String)
    (value : Datum) :
    (c.fill metadataName (.record (metadata.put name value).entries)).shown?
        (metadata.put name value) = Function.update (c.shown? metadata) name (some value) := by
  funext other
  have hvalue : (if other ∈ listedNames then
      (c.fill metadataName (.record (metadata.put name value).entries)).value? other else .none) =
        if other ∈ listedNames then c.value? other else .none := by
    by_cases hlisted : other ∈ listedNames
    · rw [if_pos hlisted, if_pos hlisted,
        value?_fill_of_ne (ne_metadataName (mem_firstNames_of_listed hlisted))]
    · rw [if_neg hlisted, if_neg hlisted]
  rw [shown?, hvalue, OrderedMap.get?_put, Function.update_apply, shown?]
  split <;> rfl

/-- A value in a listed place is shown under its name, unless the metadata have the name. -/
theorem shown?_fill_listed (hname : name ∈ listedNames) (hfree : metadata.get? name = .none)
    {value : Datum} (hvalue : value ≠ .null) :
    (c.fill name value).shown? metadata =
      Function.update (c.shown? metadata) name (some value) := by
  funext other
  rw [Function.update_apply, shown?, shown?]
  by_cases hother : other = name
  · subst hother
    rw [hfree, if_pos hname, value?_fill_self hvalue, if_pos rfl]
    rfl
  · rw [value?_fill_of_ne hother, if_neg hother]

/-- A value in a place that is not listed is not shown under its name, nor is one in a listed place
that the metadata have the name of. -/
theorem shown?_fill_of_hidden (hname : name ∈ listedNames → metadata.get? name ≠ .none)
    (value : Datum) : (c.fill name value).shown? metadata name = c.shown? metadata name := by
  rw [shown?, shown?]
  by_cases hlisted : name ∈ listedNames
  · obtain ⟨held, hheld⟩ := Option.ne_none_iff_exists'.mp (hname hlisted)
    rw [hheld]
    rfl
  · rw [if_neg hlisted, if_neg hlisted]

/-- What is added under the name shows: circumstances do not have it of themselves, or have it for a
listed place and not in the metadata. -/
def Open (metadata : OrderedMap Datum) (name : String) : Prop :=
  name ∉ firstNames ∨ name ∈ listedNames ∧ metadata.get? name = .none

/-- What is shown by name, with values written over it one after the other. -/
def overwrite (shown : String → Option Datum) (added : List (String × Datum)) :
    String → Option Datum :=
  added.foldl (fun shown entry ↦ Function.update shown entry.1 (some entry.2)) shown

theorem overwrite_append (shown : String → Option Datum) (added more : List (String × Datum)) :
    overwrite shown (added ++ more) = overwrite (overwrite shown added) more :=
  List.foldl_append

/-- Intact circumstances after a sequence of values was added to them: all of them show, and what
was open still is. -/
structure Added (c : Circumstances) (metadata : OrderedMap Datum) (added : List (String × Datum))
    (later : Circumstances) (laterMetadata : OrderedMap Datum) : Prop where
  intact : later.Intact laterMetadata
  shown : later.shown? laterMetadata = overwrite (c.shown? metadata) added
  still_open {name : String} : Open metadata name → Open laterMetadata name

theorem Intact.add (h : c.Intact metadata) (hname : Open metadata name) {value : Datum}
    (hvalue : value ≠ .null) :
    ∃ later laterMetadata, c.add name value = .ok later ∧
      c.Added metadata [(name, value)] later laterMetadata := by
  rcases hname with hname | ⟨hlisted, hfree⟩
  · refine ⟨_, metadata.put name value, h.add_metadata hname value, h.fill_metadata _,
      shown?_put_metadata c metadata name value, fun {other} hother ↦ ?_⟩
    refine hother.imp_right fun ⟨hlisted, hfree⟩ ↦ ⟨hlisted, ?_⟩
    have hne : other ≠ name := fun heq ↦ hname (heq ▸ mem_firstNames_of_listed hlisted)
    rw [OrderedMap.get?_put, if_neg hne, hfree]
  · exact ⟨_, metadata, add_listed hlisted value,
      h.fill_first (mem_firstNames_of_listed hlisted) (ne_listingName hlisted) value,
      shown?_fill_listed hlisted hfree hvalue, id⟩

theorem Added.append {middle later : Circumstances}
    {middleMetadata laterMetadata : OrderedMap Datum} {added more : List (String × Datum)}
    (h : c.Added metadata added middle middleMetadata)
    (hmore : middle.Added middleMetadata more later laterMetadata) :
    c.Added metadata (added ++ more) later laterMetadata :=
  ⟨hmore.intact, by rw [hmore.shown, h.shown, overwrite_append],
    fun hname ↦ hmore.still_open (h.still_open hname)⟩

theorem Intact.addAll (h : c.Intact metadata) {added : List (String × Datum)}
    (hadded : ∀ entry ∈ added, Open metadata entry.1 ∧ entry.2 ≠ .null) :
    ∃ later laterMetadata, c.addAll added = .ok later ∧
      c.Added metadata added later laterMetadata := by
  induction added generalizing c metadata with
  | nil => exact ⟨c, metadata, rfl, h, rfl, id⟩
  | cons entry rest ih =>
    obtain ⟨⟨hopen, hvalue⟩, hrest⟩ := List.forall_mem_cons.mp hadded
    obtain ⟨middle, middleMetadata, hadd, hmiddle⟩ := h.add hopen hvalue
    obtain ⟨later, laterMetadata, haddAll, hlater⟩ := ih hmiddle.intact fun other hother ↦
      (hrest other hother).imp_left hmiddle.still_open
    refine ⟨later, laterMetadata, ?_, hmiddle.append hlater⟩
    rw [Circumstances.addAll, hadd]
    exact haddAll

/-! ### Circumstances that failures arise in -/

theorem intact_none : none.Intact .empty where
  listing := rfl
  metadata := rfl
  known {name} hname := by
    have hmem : name ∈ [metadataName] := (OrderedMap.mem_names_iff _ name).mpr hname
    exact .inl (List.mem_singleton.mp hmem)

theorem Intact.putAll_listed {c : Circumstances} {metadata : OrderedMap Datum}
    (h : c.Intact metadata) {values : List (String × Datum)}
    (hvalues : ∀ entry ∈ values, entry.1 ∈ listedNames) :
    (Circumstances.mk (c.places.putAll values)).Intact metadata := by
  induction values generalizing c with
  | nil => exact h
  | cons entry rest ih =>
    obtain ⟨hentry, hrest⟩ := List.forall_mem_cons.mp hvalues
    have hfirst := mem_firstNames_of_listed hentry
    exact ih (h.fill_first hfirst (ne_listingName hentry) entry.2) hrest

theorem intact_of {values : List (String × Datum)}
    (hvalues : ∀ entry ∈ values, entry.1 ∈ listedNames) : (of values).Intact .empty :=
  intact_none.putAll_listed hvalues

/-- Circumstances that are made from values are intact if the metadata are a record. -/
theorem intact_ofNamed {values : List (String × Datum)} {c : Circumstances}
    (h : ofNamed values = .ok c)
    (hmetadata : ∀ value, (metadataName, value) ∈ values →
      ∃ metadata : OrderedMap Datum, value = .record metadata.entries) :
    ∃ metadata, c.Intact metadata := by
  unfold ofNamed at h
  cases hplaces : signature.valuesForThing [] values with
  | error failure =>
    rw [hplaces] at h
    cases h
  | ok places =>
    rw [hplaces] at h
    cases h
    obtain ⟨all, hall, hget⟩ := Signature.valuesForThing_eq_ok hplaces
    have hknown (name : String) (hname : places.contains name = true) :
        name = metadataName ∨ name ∈ listedNames := by
      obtain ⟨value, hvalue⟩ := Option.isSome_iff_exists.mp hname
      rw [hget] at hvalue
      split_ifs at hvalue with hreceiver
      have hmem : name ∈ Signature.receiver :: (listedNames ++ [metadataName]) :=
        Signature.mem_names_of_values hall hvalue
      have hlater := (List.mem_cons.mp hmem).resolve_left hreceiver
      exact (List.mem_append.mp hlater).symm.imp_left List.mem_singleton.mp
    have hdefault : metadataName ∈ signature.defaults.map Prod.fst := by decide
    obtain ⟨value, hvalue⟩ := Option.isSome_iff_exists.mp (Signature.isSome_of_values hall hdefault)
    have hrecord : ∃ metadata : OrderedMap Datum, value = .record metadata.entries := by
      rcases Signature.mem_of_values hall hvalue with hgiven | hplaced | hdefault
      · exact hmetadata value hgiven
      · have hmem : (metadataName, value) ∈ [(Signature.receiver, Datum.null)] := hplaced
        have hname : metadataName = Signature.receiver :=
          congrArg Prod.fst (List.mem_singleton.mp hmem)
        exact absurd hname (by decide)
      · have hempty : value = .record [] := by
          simpa [signature, Signature.defaults, Signature.ofThing, listedNames, metadataName,
            Parameter.optional, Parameter.required] using hdefault
        exact ⟨.empty, hempty⟩
    obtain ⟨metadata, rfl⟩ := hrecord
    refine ⟨metadata, ?_, ?_, fun {name} hname ↦ (hknown name hname).imp_right
      mem_firstNames_of_listed⟩
    · refine Option.not_isSome_iff_eq_none.mp fun hlisting ↦ ?_
      exact absurd (hknown listingName hlisting) (by decide)
    · rw [hget, if_neg (by decide), hvalue]

end Circumstances

/-- Every failure arises in intact circumstances. -/
theorem Failure.intact_circumstances (f : Failure) :
    ∃ metadata, f.circumstances.Intact metadata := by
  unfold circumstances
  split
  case h_9 => exact ⟨_, Circumstances.intact_none.fill_metadata (.ofList [("table", _)])⟩
  case h_10 => exact ⟨_, Circumstances.intact_none⟩
  all_goals exact ⟨_, Circumstances.intact_of (by simp [Circumstances.listedNames])⟩

end StagedColumns
