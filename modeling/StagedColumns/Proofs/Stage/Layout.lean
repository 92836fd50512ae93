import StagedColumns.Proofs.Stage.Reader
import StagedColumns.Proofs.Text.Lowercase
import StagedColumns.Stage.Coercion

/-!
# The layout of a stage text

A stage text is read by what its components are, not by how it is laid out. The components that it
is read by are its parts between separators, trimmed and put in lower case one by one (`words_eq`).
So the order of the components, the separators between them, the blanks around them, empty
components and letter case make no difference: a text with one mode of each kind gives what the two
modes in lower case give.
-/

set_option autoImplicit false

namespace StagedColumns.Stage

/-! ### Components of a text -/

theorem isBorder_of_separates {c : Char} (h : separates c = true) : Text.isBorder c = true := by
  simp only [separates, Bool.or_eq_true, beq_iff_eq] at h
  rcases h with (rfl | rfl) | rfl <;> decide

theorem separates_of_isBlank {c : Char} (h : Text.isBlank c = true) : separates c = false := by
  refine Bool.eq_false_iff.mpr fun hsep ↦ ?_
  simp only [separates, Bool.or_eq_true, beq_iff_eq] at hsep
  rcases hsep with (rfl | rfl) | rfl <;> exact absurd h (by decide)

/-- The parts of a text between separators, without the blanks around them. -/
def parts (given : String) : List (List Char) :=
  (Text.splitWhere separates given.toList).map Text.trimBlanks

/-- A text is read by its parts, each in lower case. -/
theorem words_eq (given : String) : words given = (parts given).map (Text.lowerFrom []) := by
  have hcomponents : words given =
      (Text.splitWhere separates (Text.lowerFrom [] (Text.trimBlanks given.toList))).map
        Text.trimBlanks := by
    rw [words, components, Text.lowercase, Text.trim, String.toList_ofList, String.toList_ofList]
  have hcommute : Text.trimBlanks ∘ Text.lowerFrom [] = Text.lowerFrom [] ∘ Text.trimBlanks :=
    funext Text.trimBlanks_lowerFrom
  rw [hcomponents, Text.splitWhere_lowerFrom fun _ ↦ isBorder_of_separates, List.map_map, hcommute,
    ← List.map_map, Text.map_trimBlanks_splitWhere fun _ ↦ separates_of_isBlank, parts]

/-! ### Layouts -/

/-- The characters are the component with blanks around it. -/
def Padded (component chars : List Char) : Prop :=
  ∃ front back, (∀ c ∈ front, Text.isBlank c = true) ∧ (∀ c ∈ back, Text.isBlank c = true) ∧
    chars = front ++ component ++ back

/-- The characters are the components with blanks around each, and a separator between any two. -/
inductive LaidOut : List (List Char) → List Char → Prop
  | one {component chars : List Char} (hchars : Padded component chars) :
      LaidOut [component] chars
  | more {component chars rest : List Char} {components : List (List Char)} {separator : Char}
      (hchars : Padded component chars) (hseparator : separates separator = true)
      (hrest : LaidOut components rest) :
      LaidOut (component :: components) (chars ++ separator :: rest)

/-- The text can stand in a component: it is bare and has no separator. -/
structure Enclosed (cs : List Char) : Prop where
  bare : Text.Bare cs
  whole : ∀ c ∈ cs, separates c = false

theorem Enclosed.append {front back : List Char} (hfront : Enclosed front) (hback : Enclosed back) :
    Enclosed (front ++ back) :=
  ⟨hfront.bare.append hback.bare, List.forall_mem_append.mpr ⟨hfront.whole, hback.whole⟩⟩

theorem enclosed_of_all {cs : List Char}
    (h : cs.all (fun c ↦ !Text.isBlank c && !separates c) = true) : Enclosed cs := by
  have hplain : ∀ c ∈ cs, Text.isBlank c = false ∧ separates c = false := by
    simpa using h
  exact ⟨Text.bare_of_forall fun c hc ↦ (hplain c hc).1, fun c hc ↦ (hplain c hc).2⟩

theorem Enclosed.nil : Enclosed [] :=
  ⟨⟨nofun, nofun⟩, nofun⟩

theorem Padded.trimBlanks_eq {component chars : List Char} (h : Padded component chars)
    (hcomponent : Enclosed component) : Text.trimBlanks chars = component := by
  obtain ⟨front, back, hfront, hback, rfl⟩ := h
  rw [Text.trimBlanks_append_blanks hback, Text.trimBlanks_blanks_append hfront,
    Text.trimBlanks_of_bare hcomponent.bare]

theorem Padded.whole {component chars : List Char} (h : Padded component chars)
    (hcomponent : Enclosed component) : ∀ c ∈ chars, separates c = false := by
  obtain ⟨front, back, hfront, hback, rfl⟩ := h
  refine List.forall_mem_append.mpr ⟨List.forall_mem_append.mpr ⟨?_, hcomponent.whole⟩, ?_⟩
  · exact fun c hc ↦ separates_of_isBlank (hfront c hc)
  · exact fun c hc ↦ separates_of_isBlank (hback c hc)

/-- The parts of a text that is laid out are its components. -/
theorem LaidOut.map_trimBlanks_eq {components : List (List Char)} {chars : List Char}
    (h : LaidOut components chars) (hcomponents : ∀ component ∈ components, Enclosed component) :
    (Text.splitWhere separates chars).map Text.trimBlanks = components := by
  induction h with
  | one hchars =>
    have hcomponent := hcomponents _ (List.mem_singleton_self _)
    rw [Text.splitWhere_whole (hchars.whole hcomponent), List.map_singleton,
      hchars.trimBlanks_eq hcomponent]
  | more hchars hseparator hrest ih =>
    obtain ⟨hcomponent, hothers⟩ := List.forall_mem_cons.mp hcomponents
    rw [Text.splitWhere_cut hseparator, Text.splitWhere_whole (hchars.whole hcomponent),
      List.map_append, List.map_singleton, hchars.trimBlanks_eq hcomponent, ih hothers]
    rfl

/-! ### Components that name a mode -/

/-- The component is the name of the mode behind a lead, in any letter case. -/
def Leads (lead mode : String) (component : List Char) : Prop :=
  ∃ head, Text.lowerFrom [] head = lead.toList ∧ component = head ++ '-' :: mode.toList

theorem Leads.lowerFrom_eq {lead mode : String} {component : List Char}
    (h : Leads lead mode component) :
    Text.lowerFrom [] component = lead.toList ++ '-' :: (Text.lowercase mode).toList := by
  obtain ⟨head, hhead, rfl⟩ := h
  rw [Text.lowerFrom_append_border (by decide), hhead, Text.lowercase, String.toList_ofList]

theorem Leads.enclosed {lead mode : String} {component : List Char} (h : Leads lead mode component)
    (hlead : lead.toList.all (fun c ↦ !Text.isBorder c) = true) (hmode : Enclosed mode.toList) :
    Enclosed component := by
  obtain ⟨head, hhead, rfl⟩ := h
  have hborder (c : Char) (hc : c ∈ head) : Text.isBorder c ≠ true := by
    intro hborder
    have hmem : c ∈ Text.lowerFrom [] head := (Text.mem_lowerFrom_iff hborder).mpr hc
    rw [hhead] at hmem
    simpa [hborder] using List.all_eq_true.mp hlead c hmem
  have hfront : Enclosed head :=
    ⟨Text.bare_of_forall fun c hc ↦
        Bool.eq_false_iff.mpr fun hblank ↦ hborder c hc (Text.isBorder_of_isBlank hblank),
      fun c hc ↦ Bool.eq_false_iff.mpr fun hsep ↦ hborder c hc (isBorder_of_separates hsep)⟩
  have hhyphen : Enclosed ['-'] := enclosed_of_all rfl
  exact hfront.append (hhyphen.append hmode)

/-- The components that are not empty are two: one names the mode to write, the other one the mode
to read. -/
def OneOfEach (write read : String) (components : List (List Char)) : Prop :=
  ∃ first second, Leads "write" write first ∧ Leads "read" read second ∧
    (components.filter (· ≠ [])).Perm [first, second]

theorem writeMode?_write (mode : String) :
    writeMode? ("write".toList ++ '-' :: mode.toList) = some mode := by
  change some (String.ofList mode.toList) = _
  rw [String.ofList_toList]

theorem readMode?_read (mode : String) :
    readMode? ("read".toList ++ '-' :: mode.toList) = some mode := by
  change some (String.ofList mode.toList) = _
  rw [String.ofList_toList]

theorem writeMode?_read (mode : String) :
    writeMode? ("read".toList ++ '-' :: mode.toList) = none :=
  rfl

section OneOfEach

variable {write read given : String} {components : List (List Char)}

/-- Empty components name no mode. -/
theorem filterMap_lowerFrom_eq {f : List Char → Option String} (hf : f [] = none) :
    (components.map (Text.lowerFrom [])).filterMap f =
      ((components.filter (· ≠ [])).map (Text.lowerFrom [])).filterMap f := by
  rw [List.filterMap_map, List.filterMap_map, List.filterMap_filter]
  refine List.filterMap_congr fun component _ ↦ ?_
  by_cases hempty : component = []
  · rw [hempty]
    exact hf
  · simp [hempty]

theorem OneOfEach.cases (h : OneOfEach write read components) {component : List Char}
    (hcomponent : component ∈ components) :
    component = [] ∨ Leads "write" write component ∨ Leads "read" read component := by
  obtain ⟨first, second, hfirst, hsecond, horder⟩ := h
  refine or_iff_not_imp_left.mpr fun hempty ↦ ?_
  have hmem : component ∈ components.filter (· ≠ []) := by
    simpa [hempty] using hcomponent
  rcases List.mem_pair.mp (horder.mem_iff.mp hmem) with rfl | rfl
  · exact .inl hfirst
  · exact .inr hsecond

theorem OneOfEach.enclosed (h : OneOfEach write read components) (hwrite : Enclosed write.toList)
    (hread : Enclosed read.toList) : ∀ component ∈ components, Enclosed component := by
  intro component hcomponent
  rcases h.cases hcomponent with rfl | hleads | hleads
  · exact .nil
  · exact hleads.enclosed rfl hwrite
  · exact hleads.enclosed rfl hread

theorem OneOfEach.recognised (h : OneOfEach write read components) :
    ∀ part ∈ components.map (Text.lowerFrom []), Recognised part := by
  intro part hpart
  obtain ⟨component, hcomponent, rfl⟩ := List.mem_map.mp hpart
  rcases h.cases hcomponent with rfl | hleads | hleads
  · exact .inl rfl
  · exact .inr (.inl (by rw [hleads.lowerFrom_eq, writeMode?_write]; rfl))
  · exact .inr (.inr (by rw [hleads.lowerFrom_eq, readMode?_read]; rfl))

/-- In lower case the components name the two modes in lower case, and no other. -/
theorem OneOfEach.modes (h : OneOfEach write read components) :
    (components.map (Text.lowerFrom [])).filterMap writeMode? = [Text.lowercase write] ∧
      (components.map (Text.lowerFrom [])).filterMap readMode? = [Text.lowercase read] := by
  obtain ⟨first, second, hfirst, hsecond, horder⟩ := h
  rw [filterMap_lowerFrom_eq (f := writeMode?) rfl, filterMap_lowerFrom_eq (f := readMode?) rfl,
    ← List.perm_singleton, ← List.perm_singleton]
  have hwriting : writeMode? (Text.lowerFrom [] first) = some (Text.lowercase write) := by
    rw [hfirst.lowerFrom_eq, writeMode?_write]
  have hreading : readMode? (Text.lowerFrom [] second) = some (Text.lowercase read) := by
    rw [hsecond.lowerFrom_eq, readMode?_read]
  have hnotWriting : writeMode? (Text.lowerFrom [] second) = none := by
    rw [hsecond.lowerFrom_eq, writeMode?_read]
  have hlower := horder.map (Text.lowerFrom [])
  rw [List.map_cons, List.map_singleton] at hlower
  refine ⟨(hlower.filterMap writeMode?).trans ?_, (hlower.filterMap readMode?).trans ?_⟩
  · rw [List.filterMap_cons_some hwriting, List.filterMap_cons_none hnotWriting]
    rfl
  · rw [List.filterMap_cons_none (readMode?_of_writeMode? hwriting),
      List.filterMap_cons_some hreading]
    rfl

/-- A text that is laid out gives the stage of its two modes in lower case. -/
theorem LaidOut.ofText_eq_ok_iff (h : LaidOut components given.toList)
    (hmodes : OneOfEach write read components) (hwrite : Enclosed write.toList)
    (hread : Enclosed read.toList) (s : Stage) :
    ofText given = .ok s ↔ ofNames (Text.lowercase write) (Text.lowercase read) = .ok s := by
  have hwords : words given = components.map (Text.lowerFrom []) := by
    rw [words_eq, parts, h.map_trimBlanks_eq (hmodes.enclosed hwrite hread)]
  obtain ⟨hwriting, hreading⟩ := hmodes.modes
  rw [← hwords] at hwriting hreading
  have hshort : ¬ IsShorthand given s := by
    intro hshort
    have hmem : Text.lowercase write ∈ (words given).filterMap writeMode? := by simp [hwriting]
    obtain ⟨part, hpart, hmode⟩ := List.mem_filterMap.mp hmem
    rw [(not_mode_of_shorthand hshort hpart).2.1] at hmode
    cases hmode
  rw [Stage.ofText_eq_ok_iff, or_iff_right hshort, ofNames_eq_ok_iff]
  refine ⟨fun hlast ↦ ?_, fun ⟨hwrite, hread⟩ ↦ ⟨hwords ▸ hmodes.recognised, ?_, ?_⟩⟩
  · have hwriting' := hlast.writing
    have hreading' := hlast.reading
    rw [writeModes, hwriting] at hwriting'
    rw [readModes, hreading] at hreading'
    exact ⟨Option.some.inj hwriting', Option.some.inj hreading'⟩
  · rw [writeModes, hwriting, hwrite]
    rfl
  · rw [readModes, hreading, hread]
    rfl

end OneOfEach

/-! ### What a layout makes of the outcome -/

/-- Both give the same stage, or both refuse theirs as a stage. -/
def SameOutcome (given named : Except Failure Stage) : Prop :=
  (∃ s, given = .ok s ∧ named = .ok s) ∨
    ∃ fault other, given = .error (.stage fault) ∧ named = .error (.stage other)

theorem sameOutcome_of_iff {given named : Except StageFault Stage}
    (h : ∀ s, given = .ok s ↔ named = .ok s) :
    SameOutcome (given.mapError .stage) (named.mapError .stage) := by
  cases given with
  | ok s =>
    rw [(h s).mp rfl]
    exact .inl ⟨s, rfl, rfl⟩
  | error fault =>
    cases named with
    | ok s => cases (h s).mpr rfl
    | error other => exact .inr ⟨fault, other, rfl, rfl⟩

theorem ofDatum_text (given : String) : ofDatum (.text given) = (ofText given).mapError .stage :=
  rfl

theorem mapError_stage_eq_ok_iff {read : Except StageFault Stage} {s : Stage} :
    (read.mapError .stage : Except Failure Stage) = .ok s ↔ read = .ok s := by
  cases read with
  | ok other => exact (Except.ok.injEq ..).to_iff.trans (Except.ok.injEq ..).to_iff.symm
  | error fault => exact iff_of_false nofun nofun

theorem ofDatum_text_eq_ok_iff {given : String} {s : Stage} :
    ofDatum (.text given) = .ok s ↔ ofText given = .ok s := by
  rw [ofDatum_text, mapError_stage_eq_ok_iff]

theorem ofModeData_text (write read : String) :
    ofModeData (.text write) (.text read) = (ofNames write read).mapError .stage :=
  rfl

theorem ofText_label (s : Stage) : ofText s.label = .ok s := by
  obtain ⟨writing, reading, hwritten⟩ := s
  revert hwritten
  cases writing <;> cases reading <;> decide

/-- A text that names one mode of each kind gives what the two modes in lower case give, whatever
its layout. Every text gives a stage or is refused as a stage. A text with a part that is not empty
and names no mode gives a stage only if it is shorthand as a whole. The label of a stage gives the
stage. -/
theorem layout_is_ignored (given : String) :
    (∀ write read components, Enclosed write.toList → Enclosed read.toList →
      OneOfEach write read components → LaidOut components given.toList →
      SameOutcome (ofDatum (.text given))
        (ofModeData (.text (Text.lowercase write)) (.text (Text.lowercase read)))) ∧
      ((∃ s, ofDatum (.text given) = .ok s) ∨
        ∃ fault, ofDatum (.text given) = .error (.stage fault)) ∧
      (∀ s, ofDatum (.text given) = .ok s →
        (∃ part ∈ parts given, ¬ Recognised (Text.lowerFrom [] part)) →
        Text.lowercase (Text.trim given) = "old" ∨ Text.lowercase (Text.trim given) = "new") ∧
      ∀ s : Stage, ofDatum (.text s.label) = .ok s := by
  refine ⟨fun write read components hwrite hread hmodes hlaid ↦ ?_, ?_, fun s hs ↦ ?_, fun s ↦ ?_⟩
  · rw [ofDatum_text, ofModeData_text]
    exact sameOutcome_of_iff (hlaid.ofText_eq_ok_iff hmodes hwrite hread)
  · rw [ofDatum_text]
    cases ofText given with
    | ok s => exact .inl ⟨s, rfl⟩
    | error fault => exact .inr ⟨fault, rfl⟩
  · rintro ⟨part, hpart, hunknown⟩
    rcases Stage.ofText_eq_ok_iff.mp (ofDatum_text_eq_ok_iff.mp hs) with ⟨hname, -⟩ | hlast
    · rw [hname]
      cases s.reading with
      | old => exact .inl rfl
      | new => exact .inr rfl
    · have hword : Text.lowerFrom [] part ∈ words given := by
        rw [words_eq]
        exact List.mem_map_of_mem hpart
      exact absurd (hlast.recognised _ hword) hunknown
  · exact ofDatum_text_eq_ok_iff.mpr (ofText_label s)

/-- Two components in the other order and in mixed case, with an empty one between them, and
shorthand with blanks around it. -/
theorem both_old_read_from_layout :
    LaidOut ["Read-OLD".toList, [], "WRITE-Both".toList] "Read-OLD ,/\tWRITE-Both".toList ∧
      SameOutcome (ofDatum (.text "Read-OLD ,/\tWRITE-Both"))
        (ofModeData (.text (Text.lowercase "Both")) (.text (Text.lowercase "OLD"))) ∧
      ofDatum (.text "Read-OLD ,/\tWRITE-Both") = .ok ⟨.both, .old, rfl⟩ ∧
      (Text.lowercase (Text.trim " Old ") = "old" ∨
        Text.lowercase (Text.trim " Old ") = "new") := by
  have hlaid : LaidOut ["Read-OLD".toList, [], "WRITE-Both".toList]
      ("Read-OLD ".toList ++ ',' :: ([] ++ '/' :: "\tWRITE-Both".toList)) :=
    .more ⟨[], [' '], nofun, List.all_eq_true.mp rfl, rfl⟩ rfl
      (.more ⟨[], [], nofun, nofun, rfl⟩ rfl
        (.one ⟨['\t'], [], List.all_eq_true.mp rfl, nofun, rfl⟩))
  have hmodes : OneOfEach "Both" "OLD" ["Read-OLD".toList, [], "WRITE-Both".toList] :=
    ⟨"WRITE-Both".toList, "Read-OLD".toList, ⟨"WRITE".toList, by decide, rfl⟩,
      ⟨"Read".toList, by decide, rfl⟩, .swap _ _ _⟩
  have hboth : Enclosed "Both".toList := enclosed_of_all rfl
  have hold : Enclosed "OLD".toList := enclosed_of_all rfl
  refine ⟨hlaid, ?_, ?_, ?_⟩
  · exact (layout_is_ignored "Read-OLD ,/\tWRITE-Both").1 _ _ _ hboth hold hmodes hlaid
  · exact ofDatum_text_eq_ok_iff.mpr (by decide)
  · have hgiven : ofDatum (.text " Old ") = .ok (only .old) :=
      ofDatum_text_eq_ok_iff.mpr (by decide)
    refine (layout_is_ignored " Old ").2.2.1 _ hgiven ⟨"Old".toList, by decide, ?_⟩
    unfold Recognised
    decide

end StagedColumns.Stage
