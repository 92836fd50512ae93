import StagedColumns.Proofs.Failure.Circumstances

/-!
# What a report tells of what was added to it

Circumstances are added to a report call by call, and told in its context. For every name that is
told the last value counts, whatever is added in whatever calls. For any other name there is a value
that is refused, that is not told, or that keeps the report from being made out
(`last_added_counts_iff`). Both are about drafts that nothing is wrong with, as are all that callers
ask for with a category and circumstances that are what they should be (`proper_ask`), and all that
come of failures (`proper_reportAs`).
-/

set_option autoImplicit false

namespace StagedColumns

/-- What the parts of a report tell under a name in its context. -/
def Report.contextOf (parts : List (String × Part)) (name : String) : Option Datum :=
  match parts.lookup "context" with
  | some (.listing l) => l.get? (.text name)
  | _ => none

/-- The parts of the report, with the listing of its circumstances. -/
def Report.partsWith (r : Report) (listing : Listing) : List (String × Part) :=
  [("error_type", .value r.kind.name), ("message", .value r.message),
      ("category", .value r.category.name)] ++
    (if listing.isEmpty then [] else [("context", .listing listing)]) ++
    (r.cause.map fun cause ↦ ("cause", Part.value cause)).toList

/-- The context is left out if nothing is listed, and then it tells nothing either way. -/
theorem Report.contextOf_partsWith (r : Report) (listing : Listing) (name : String) :
    contextOf (r.partsWith listing) name = listing.get? (.text name) := by
  unfold contextOf partsWith
  cases hempty : listing.isEmpty with
  | false => rfl
  | true =>
    have hentries : listing.entries = [] := List.isEmpty_iff.mp hempty
    rw [Listing.get?, hentries]
    cases r.cause <;> rfl

namespace Draft

/-- What is told in the context of the report that the draft makes. -/
def context (d : Draft) : Except Failure (String → Option Datum) := do
  return Report.contextOf (← (← d.made).parts)

/-- Nothing stands in the place of the category or the circumstances, and the circumstances can be
listed. -/
structure Proper (d : Draft) (metadata : OrderedMap Datum) : Prop where
  category : d.category? = none
  substitute : d.substitute? = none
  intact : d.report.circumstances.Intact metadata

/-- What is added under the name is told: the name can be given, and is open in the circumstances.
-/
def Told (metadata : OrderedMap Datum) (name : String) : Prop :=
  name ≠ Signature.receiver ∧ Circumstances.Open metadata name

/-- After the calls the report is still made out, and its context is the one from before, over which
what was added is written in the order of the calls. -/
def LastCounts (d : Draft) (calls : List (List (String × Datum))) : Prop :=
  ∃ before later after, d.context = .ok before ∧ calls.foldlM withCircumstances d = .ok later ∧
    later.context = .ok after ∧ after = Circumstances.overwrite before calls.flatten

variable {d : Draft} {metadata : OrderedMap Datum} {name : String}

theorem context_eq (hcategory : d.category? = none) (hsubstitute : d.substitute? = none) :
    d.context = d.report.circumstances.listing.map fun l name ↦ l.get? (.text name) := by
  have hmade : d.made = .ok d.report := by
    rw [made, hcategory, hsubstitute]
  rw [context, hmade]
  change (return Report.contextOf (← d.report.parts)) = _
  rw [Report.parts]
  cases d.report.circumstances.listing with
  | error failure => rfl
  | ok l => exact congrArg Except.ok (funext fun name ↦ d.report.contextOf_partsWith l name)

theorem Proper.context_eq (h : d.Proper metadata) :
    d.context = .ok (d.report.circumstances.shown? metadata) := by
  obtain ⟨l, hlisting, hl⟩ := h.intact.listing_eq
  rw [Draft.context_eq h.category h.substitute, hlisting]
  exact congrArg Except.ok (funext hl)

/-- The draft with other circumstances. -/
def inCircumstances (d : Draft) (circumstances : Circumstances) : Draft :=
  { d with report := { d.report with circumstances := circumstances } }

theorem Proper.withCircumstances_eq (h : d.Proper metadata) {added : List (String × Datum)}
    (hreceiver : ∀ entry ∈ added, entry.1 ≠ Signature.receiver) :
    d.withCircumstances added = (d.report.circumstances.addAll added).map d.inCircumstances := by
  have hany : added.any (·.1 = Signature.receiver) = false :=
    List.any_eq_false.mpr fun entry hentry hname ↦ hreceiver entry hentry (of_decide_eq_true hname)
  obtain ⟨report, category?, substitute?⟩ := d
  obtain rfl : substitute? = none := h.substitute
  rw [Draft.withCircumstances, hany]
  cases report.circumstances.addAll added <;> rfl

/-- Values under names that are told are added to the circumstances of the report. -/
theorem Proper.withCircumstances (h : d.Proper metadata) {added : List (String × Datum)}
    (hadded : ∀ entry ∈ added, Told metadata entry.1 ∧ entry.2 ≠ .null) :
    ∃ later laterMetadata, d.withCircumstances added = .ok later ∧ later.Proper laterMetadata ∧
      d.report.circumstances.Added metadata added later.report.circumstances laterMetadata := by
  obtain ⟨circumstances, laterMetadata, haddAll, hlater⟩ := h.intact.addAll fun entry hentry ↦
    (hadded entry hentry).imp_left And.right
  refine ⟨d.inCircumstances circumstances, laterMetadata, ?_,
    ⟨h.category, h.substitute, hlater.intact⟩, hlater⟩
  rw [h.withCircumstances_eq fun entry hentry ↦ (hadded entry hentry).1.1, haddAll]
  rfl

theorem Proper.foldlM (h : d.Proper metadata) {calls : List (List (String × Datum))}
    (hcalls : ∀ added ∈ calls, ∀ entry ∈ added, Told metadata entry.1 ∧ entry.2 ≠ .null) :
    ∃ later laterMetadata, calls.foldlM Draft.withCircumstances d = .ok later ∧
      later.Proper laterMetadata ∧
      d.report.circumstances.Added metadata calls.flatten later.report.circumstances
        laterMetadata := by
  induction calls generalizing d metadata with
  | nil => exact ⟨d, metadata, rfl, h, h.intact, rfl, id⟩
  | cons added rest ih =>
    obtain ⟨hadded, hrest⟩ := List.forall_mem_cons.mp hcalls
    obtain ⟨middle, middleMetadata, hadd, hproper, hmiddle⟩ := h.withCircumstances hadded
    obtain ⟨later, laterMetadata, hlast, hlater, hafter⟩ := ih hproper fun others hothers entry
      hentry ↦ (hrest others hothers entry hentry).imp_left fun htold ↦
        ⟨htold.1, hmiddle.still_open htold.2⟩
    refine ⟨later, laterMetadata, ?_, hlater, hmiddle.append hafter⟩
    rw [List.foldlM_cons, hadd]
    exact hlast

theorem Proper.lastCounts (h : d.Proper metadata) {calls : List (List (String × Datum))}
    (hcalls : ∀ added ∈ calls, ∀ entry ∈ added, Told metadata entry.1 ∧ entry.2 ≠ .null) :
    d.LastCounts calls := by
  obtain ⟨later, laterMetadata, hlater, hproper, hadded⟩ := h.foldlM hcalls
  exact ⟨_, later, _, h.context_eq, hlater, hproper.context_eq, hadded.shown⟩

/-! ### Names that are not told -/

theorem exists_text_ne (held : Option Datum) : ∃ text : String, some (Datum.text text) ≠ held := by
  by_contra hall
  simp only [not_exists, not_not] at hall
  have hsame : some (Datum.text "") = some (Datum.text "other") := (hall _).trans (hall _).symm
  simp at hsame

/-- A text under a name that is not told is refused, keeps the report from being made out, or leaves
what the report tells under the name. -/
theorem Proper.text_not_told (h : d.Proper metadata) (hname : ¬ Told metadata name) (text : String)
    {later : Draft} (hlater : d.withCircumstances [(name, .text text)] = .ok later)
    {after : String → Option Datum} (hafter : later.context = .ok after) :
    after name = d.report.circumstances.shown? metadata name := by
  by_cases hreceiver : name = Signature.receiver
  · subst hreceiver
    cases hlater
  · have hfirst : name ∈ Circumstances.firstNames :=
      not_not.mp fun hnew ↦ hname ⟨hreceiver, .inl hnew⟩
    have hhidden : name ∈ Circumstances.listedNames → metadata.get? name ≠ none :=
      fun hlisted hfree ↦ hname ⟨hreceiver, .inr ⟨hlisted, hfree⟩⟩
    rw [h.withCircumstances_eq (by simpa using hreceiver), Circumstances.addAll_singleton] at hlater
    rcases Circumstances.add_text_first hfirst text with ⟨failure, hadd⟩ | hadd
    · rw [hadd] at hlater
      cases hlater
    · rw [hadd] at hlater
      cases hlater
      by_cases hlisting : name = Circumstances.listingName
      · -- the text stands in the way of the listing
        subst hlisting
        have hcontext := Draft.context_eq (d := d.inCircumstances
          (d.report.circumstances.fill Circumstances.listingName (.text text)))
          h.category h.substitute
        rw [hafter, inCircumstances, Circumstances.listing_of_fill] at hcontext
        cases hcontext
      · have hproper : (d.inCircumstances (d.report.circumstances.fill name (.text text))).Proper
            metadata := ⟨h.category, h.substitute, h.intact.fill_first hfirst hlisting _⟩
        rw [hproper.context_eq] at hafter
        cases hafter
        exact Circumstances.shown?_fill_of_hidden hhidden _

end Draft

/-! ### Reports that are asked for -/

theorem Report.intact_ofValues (kind : Kind) (value : String → Datum) :
    ∃ metadata, (ofValues kind value).circumstances.Intact metadata := by
  cases kind with
  | general | config | usage | storage => exact ⟨_, Circumstances.intact_none⟩
  | invalidStage => exact ⟨_, Circumstances.intact_of (by simp [Circumstances.listedNames])⟩
  | unknownKey | wrongWrite | invalidUsers | missingValue | fieldRemoved =>
    simp only [ofValues, Failure.reportAs]
    exact Failure.intact_circumstances _

/-- The parameters for the category and the circumstances are not placed. -/
theorem Kind.particulars_not_placed (kind : Kind) :
    ∀ name ∈ [Particulars.categoryName, Particulars.circumstancesName],
      name ∉ kind.signature.placed.map Parameter.name := by
  cases kind <;> decide

theorem Kind.particulars_default (kind : Kind) :
    ∀ name ∈ [Particulars.categoryName, Particulars.circumstancesName], ∀ value,
      (name, value) ∈ kind.signature.defaults → value = .null := by
  cases kind <;>
    simp [Kind.signature, Signature.defaults, Signature.ofThing, Parameter.optional,
      Parameter.required, Particulars.categoryName, Particulars.circumstancesName,
      Particulars.causeName, Signature.receiver]

namespace Draft

/-- Where the particulars are given apart, their parameters have the absent value. -/
theorem null_of_ask {kind : Kind} {given : List Datum} {named : List (String × Datum)}
    {p : Particulars} {values : OrderedMap Datum}
    (h : kind.signature.valuesForThing given (p.clear named) = .ok values)
    (hnamed : ∀ entry ∈ named, entry.1 ≠ Particulars.categoryName ∧
      entry.1 ≠ Particulars.circumstancesName) :
    ∀ name ∈ [Particulars.categoryName, Particulars.circumstancesName],
      (values.get? name).getD .null = .null := by
  intro name hname
  obtain ⟨all, hall, hget⟩ := Signature.valuesForThing_eq_ok h
  rw [hget]
  split_ifs
  · rfl
  cases hvalue : all.get? name with
  | none => rfl
  | some value =>
    rw [Option.getD_some]
    rcases Signature.mem_of_values hall hvalue with hgiven | hplaced | hdefault
    · have hcleared := (OrderedMap.get?_eq_some_iff_mem _ _ _).mpr hgiven
      rcases OrderedMap.mem_or_of_get?_putAll _ hcleared with hapart | hgiven
      · obtain ⟨own, -, heq⟩ := List.mem_map.mp hapart
        cases heq
        rfl
      · have hentry := hnamed _ (OrderedMap.mem_of_get?_ofList hgiven)
        rcases List.mem_pair.mp hname with rfl | rfl
        · exact absurd rfl hentry.1
        · exact absurd rfl hentry.2
    · exact absurd (List.of_mem_zip hplaced).1 (kind.particulars_not_placed name hname)
    · exact kind.particulars_default name hname value hdefault

/-- A draft that callers ask for is proper if they give no category and no circumstances but what
these should be. -/
theorem proper_ask {kind : Kind} {given : List Datum} {named : List (String × Datum)}
    {p : Particulars} {d : Draft} (h : ask kind given named p = .ok d)
    (hnamed : ∀ entry ∈ named, entry.1 ≠ Particulars.categoryName ∧
      entry.1 ≠ Particulars.circumstancesName)
    (hp : ∀ c, p.circumstances = some c → ∃ metadata, c.Intact metadata) :
    ∃ metadata, d.Proper metadata := by
  unfold ask at h
  cases hvalues : kind.signature.valuesForThing given (p.clear named) with
  | error failure =>
    rw [hvalues] at h
    cases h
  | ok values =>
    rw [hvalues] at h
    have hnull := null_of_ask hvalues hnamed
    have hcircumstances : ∃ metadata, (p.circumstances.getD (Report.ofValues kind fun name ↦
        (values.get? name).getD .null).circumstances).Intact metadata := by
      cases hgiven : p.circumstances with
      | none => exact Report.intact_ofValues kind _
      | some c => exact hp c hgiven
    obtain ⟨metadata, hintact⟩ := hcircumstances
    dsimp only [bind, Except.bind] at h
    split at h
    · cases h
      refine ⟨metadata, ?_, ?_, hintact⟩
      · simp only [hnull Particulars.categoryName (by decide)]
        rfl
      · simp only [hnull Particulars.circumstancesName (by decide)]
        rfl
    · cases h

/-- Nothing is wrong with a draft that comes of a failure. -/
theorem proper_reportAs (f : Failure) (kind : Kind) :
    ∃ metadata, Proper ⟨f.reportAs kind, none, none⟩ metadata :=
  f.intact_circumstances.imp fun _ h ↦ ⟨rfl, rfl, h⟩

/-! ### The last value -/

/-- The last value that is added under each name counts, whatever is added in whatever calls,
exactly if all the names are told. -/
theorem last_added_counts_iff (d : Draft) (metadata : OrderedMap Datum) (hd : d.Proper metadata)
    (may : String → Prop) :
    (∀ calls, (∀ added ∈ calls, ∀ entry ∈ added, may entry.1 ∧ entry.2 ≠ .null) →
      d.LastCounts calls) ↔ ∀ name, may name → Told metadata name := by
  constructor
  · intro hlaw name hname
    by_contra htold
    obtain ⟨text, htext⟩ := exists_text_ne (d.report.circumstances.shown? metadata name)
    obtain ⟨before, later, after, -, hcalls, hafter, heq⟩ :=
      hlaw [[(name, .text text)]] (by simpa using hname)
    have hlater : d.withCircumstances [(name, .text text)] = .ok later := by
      simpa only [List.foldlM_cons, List.foldlM_nil, bind_pure] using hcalls
    have hshown := hd.text_not_told htold text hlater hafter
    rw [heq] at hshown
    exact htext (by simpa [Circumstances.overwrite] using hshown)
  · exact fun hmay calls hcalls ↦ hd.lastCounts fun added hadded entry hentry ↦
      (hcalls added hadded entry hentry).imp_left (hmay entry.1)

/-- A report of broken calling code, with metadata. -/
def badCall (metadata : OrderedMap Datum) : Draft :=
  ⟨⟨.usage, "bad", .usage,
    Circumstances.none.fill Circumstances.metadataName (.record metadata.entries), none, []⟩,
    none, none⟩

theorem proper_badCall (metadata : OrderedMap Datum) : (badCall metadata).Proper metadata :=
  ⟨rfl, rfl, Circumstances.intact_none.fill_metadata metadata⟩

/-- A key is added twice and a table in between. -/
theorem last_key_counts :
    (badCall .empty).LastCounts
      [[("key", "rev_user"), ("table", "revision")], [("key", "ar_user")]] := by
  refine (last_added_counts_iff (badCall .empty) .empty (proper_badCall .empty)
    (· ∈ ["key", "table"])).mpr ?_ _ ?_
  · intro name hname
    rcases List.mem_pair.mp hname with rfl | rfl
    · exact ⟨by decide, .inr ⟨by decide, rfl⟩⟩
    · exact ⟨by decide, .inl (by decide)⟩
  · simp [-Prod.forall]

/-- A value under the name of the listing keeps the report from being made out, and a key that the
metadata have already hides the key that is added. -/
theorem listing_name_not_counted :
    ask .usage ["bad"] [] ⟨none, none, none⟩ = .ok (badCall .empty) ∧
      ¬ (badCall .empty).LastCounts [[("to_dict", "x")]] ∧
      ¬ (badCall (.ofList [("key", "old")])).LastCounts [[("key", "new")]] := by
  refine ⟨rfl, ?_, ?_⟩
  · rintro ⟨before, later, after, -, hcalls, hafter, -⟩
    cases hcalls
    cases hafter
  · rintro ⟨before, later, after, -, hcalls, hafter, heq⟩
    cases hcalls
    cases hafter
    have hkey : some (Datum.text "old") = some (Datum.text "new") := congrFun heq "key"
    simp at hkey

end Draft

end StagedColumns
