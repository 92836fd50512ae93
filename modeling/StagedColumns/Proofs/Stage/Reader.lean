import Mathlib.Data.List.Basic
import StagedColumns.Stage.Reader

/-!
# What a stage text is read as

A text that is not shorthand gives a stage exactly if each of its components is empty or names a
mode, and the last mode of each kind is one of the stage (`ofText_eq_ok_iff`). So a component is
overruled by a later one of its kind, whatever it names: a text that names two modes to read gives
a stage where a number with both read bits gives none. Only a text in which all components of a kind
name the same mode has nothing to overrule, and it gives a stage that all its components agree with.
-/

set_option autoImplicit false

namespace StagedColumns

theorem Schema.ofName?_eq_some_iff {name : String} {schema : Schema} :
    Schema.ofName? name = some schema ↔ name = schema.name := by
  unfold Schema.ofName?
  cases schema with
  | old => simp [Schema.name]
  | new =>
    simp only [Schema.name]
    split_ifs <;> simp_all

theorem Writing.ofName?_eq_some_iff {name : String} {writing : Writing} :
    Writing.ofName? name = some writing ↔ name = writing.name := by
  unfold Writing.ofName?
  cases writing <;> simp only [Writing.name] <;> split_ifs <;> simp_all

theorem StageBits.writing?_eq_some_iff {bits : StageBits} {writing : Writing} :
    bits.writing? = some writing ↔
      bits.writeOld = writing.fills .old ∧ bits.writeNew = writing.fills .new := by
  obtain ⟨_ | _, _, _ | _, _⟩ := bits <;> cases writing <;> simp [writing?, Writing.fills]

theorem StageBits.eq_bits_iff {bits : StageBits} {s : Stage} :
    bits = s.bits ↔ bits.writing? = some s.writing ∧ bits.readOld = s.readsOld ∧
      bits.readNew = s.readsNew := by
  rw [writing?_eq_some_iff]
  obtain ⟨writeOld, readOld, writeNew, readNew⟩ := bits
  rw [Stage.bits, StageBits.mk.injEq, Stage.writesOld, Stage.writesNew]
  constructor
  · rintro ⟨hwriteOld, hreadOld, hwriteNew, hreadNew⟩
    exact ⟨⟨hwriteOld, hwriteNew⟩, hreadOld, hreadNew⟩
  · rintro ⟨⟨hwriteOld, hwriteNew⟩, hreadOld, hreadNew⟩
    exact ⟨hwriteOld, hreadOld, hwriteNew, hreadNew⟩

namespace Stage

theorem ofModes_eq_ok_iff {writing : Writing} {reading : Schema} {s : Stage} :
    ofModes writing reading = .ok s ↔ writing = s.writing ∧ reading = s.reading := by
  unfold ofModes
  constructor
  · intro h
    split_ifs at h
    cases h
    exact ⟨rfl, rfl⟩
  · rintro ⟨rfl, rfl⟩
    rw [dif_pos s.reads_written]

theorem ofGiven_eq_ok_iff {write read : GivenMode} {s : Stage} :
    ofGiven write read = .ok s ↔
      write.name? = some s.writing.name ∧ read.name? = some s.reading.name := by
  have hwrite (writing : Writing) : write.name?.bind Writing.ofName? = some writing ↔
      write.name? = some writing.name := by
    simp [Option.bind_eq_some_iff, Writing.ofName?_eq_some_iff]
  have hread (reading : Schema) : read.name?.bind Schema.ofName? = some reading ↔
      read.name? = some reading.name := by
    simp [Option.bind_eq_some_iff, Schema.ofName?_eq_some_iff]
  rw [← hwrite, ← hread]
  simp only [ofGiven]
  cases write.name?.bind Writing.ofName? with
  | none => simp
  | some writing =>
    cases read.name?.bind Schema.ofName? with
    | none => simp
    | some reading => simp [ofModes_eq_ok_iff]

theorem ofNames_eq_ok_iff {write read : String} {s : Stage} :
    ofNames write read = .ok s ↔ write = s.writing.name ∧ read = s.reading.name := by
  simp [ofNames, ofGiven_eq_ok_iff, GivenMode.ofText]

/-- A number gives the stage that has its stage bits, if there is one. -/
theorem ofFlags_eq_ok_iff {n : Int} {s : Stage} :
    ofFlags n = .ok s ↔ StageBits.ofInt n = s.bits := by
  rw [StageBits.eq_bits_iff]
  simp only [ofFlags]
  obtain ⟨_, reading, _⟩ := s
  cases (StageBits.ofInt n).writing? with
  | none => simp
  | some writing =>
    cases (StageBits.ofInt n).readOld <;> cases (StageBits.ofInt n).readNew <;>
      cases reading <;> simp [ofModes_eq_ok_iff, readsOld, readsNew]

/-! ### Components -/

/-- The mode to write that a component names. -/
def writeMode? (component : List Char) : Option String :=
  (Text.after? "write-" component).map String.ofList

/-- The mode to read that a component names. -/
def readMode? (component : List Char) : Option String :=
  (Text.after? "read-" component).map String.ofList

/-- The component is empty or names a mode. -/
def Recognised (component : List Char) : Prop :=
  component = [] ∨ (writeMode? component).isSome ∨ (readMode? component).isSome

/-- A component does not name modes of both kinds. -/
theorem readMode?_of_writeMode? {component : List Char} {mode : String}
    (h : writeMode? component = some mode) : readMode? component = none := by
  obtain ⟨rest, hrest, -⟩ := Option.map_eq_some_iff.mp h
  rw [List.append_eq_of_isPrefixOf?_eq_some hrest |>.symm]
  rfl

section Components

variable {given mode : String} {named later : NamedModes} {component : List Char}
variable {rest parts : List (List Char)}

theorem readComponents_of_writeMode? (h : writeMode? component = some mode) :
    readComponents given named (component :: rest) =
      readComponents given ⟨some mode, named.read?⟩ rest := by
  obtain ⟨cs, hcs, rfl⟩ := Option.map_eq_some_iff.mp h
  rw [readComponents, hcs]

theorem readComponents_of_readMode? (h : readMode? component = some mode) :
    readComponents given named (component :: rest) =
      readComponents given ⟨named.write?, some mode⟩ rest := by
  have hwrite : writeMode? component = none := by
    by_contra hsome
    obtain ⟨other, hother⟩ := Option.ne_none_iff_exists'.mp hsome
    rw [readMode?_of_writeMode? hother] at h
    cases h
  obtain ⟨cs, hcs, rfl⟩ := Option.map_eq_some_iff.mp h
  rw [readComponents, Option.map_eq_none_iff.mp hwrite, hcs]

/-- A component that names no mode is passed over if it is empty, and refused otherwise. -/
theorem readComponents_of_none (hwrite : writeMode? component = none)
    (hread : readMode? component = none) :
    readComponents given named (component :: rest) =
      if component = [] then readComponents given named rest
      else .error (.unrecognised (String.ofList component) given) := by
  rw [readComponents, Option.map_eq_none_iff.mp hwrite, Option.map_eq_none_iff.mp hread]

/-- The components are read if each of them is recognised, and then the last mode of each kind
counts, or else the one that was named before. -/
theorem readComponents_eq_ok_iff :
    readComponents given named parts = .ok later ↔ (∀ part ∈ parts, Recognised part) ∧
      later = ⟨(parts.filterMap writeMode?).getLast?.or named.write?,
        (parts.filterMap readMode?).getLast?.or named.read?⟩ := by
  induction parts generalizing named with
  | nil => simp [readComponents, eq_comm]
  | cons component rest ih =>
    rw [List.forall_mem_cons]
    cases hwrite : writeMode? component with
    | some mode =>
      have hread := readMode?_of_writeMode? hwrite
      have hrecognised : Recognised component := .inr (.inl (by rw [hwrite]; rfl))
      rw [readComponents_of_writeMode? hwrite, ih, List.filterMap_cons_some hwrite,
        List.filterMap_cons_none hread, List.getLast?_cons]
      simp [hrecognised, Option.or_some]
    | none =>
      cases hread : readMode? component with
      | some mode =>
        have hrecognised : Recognised component := .inr (.inr (by rw [hread]; rfl))
        rw [readComponents_of_readMode? hread, ih, List.filterMap_cons_none hwrite,
          List.filterMap_cons_some hread, List.getLast?_cons]
        simp [hrecognised, Option.or_some]
      | none =>
        have hrecognised : Recognised component ↔ component = [] := by
          simp [Recognised, hwrite, hread]
        rw [readComponents_of_none hwrite hread, List.filterMap_cons_none hwrite,
          List.filterMap_cons_none hread, hrecognised]
        by_cases hempty : component = []
        · rw [if_pos hempty, ih]
          simp [hempty]
        · rw [if_neg hempty]
          simp [hempty]

end Components

/-! ### Texts -/

section Texts

variable {given : String} {s : Stage}

/-- The components of a stage text, in lower case. -/
def words (given : String) : List (List Char) :=
  components (Text.lowercase (Text.trim given))

/-- The modes to write that a stage text names, in their order. -/
def writeModes (given : String) : List String :=
  (words given).filterMap writeMode?

/-- The modes to read that a stage text names, in their order. -/
def readModes (given : String) : List String :=
  (words given).filterMap readMode?

/-- The text is the name of the one representation that the stage writes and reads. -/
def IsShorthand (given : String) (s : Stage) : Prop :=
  Text.lowercase (Text.trim given) = s.reading.name ∧ s = only s.reading

/-- Each component of the text is empty or names a mode, and the last mode of each kind is the one
of the stage. -/
structure NamesLast (given : String) (s : Stage) : Prop where
  recognised : ∀ part ∈ words given, Recognised part
  writing : (writeModes given).getLast? = some s.writing.name
  reading : (readModes given).getLast? = some s.reading.name

/-- The text is shorthand for the stage, or each mode that it names is the one of the stage. -/
def AgreesWith (given : String) (s : Stage) : Prop :=
  IsShorthand given s ∨
    (∀ mode ∈ writeModes given, mode = s.writing.name) ∧
      ∀ mode ∈ readModes given, mode = s.reading.name

/-- The text names no two different modes of a kind. -/
def Consistent (given : String) : Prop :=
  (∀ mode ∈ writeModes given, ∀ other ∈ writeModes given, mode = other) ∧
    ∀ mode ∈ readModes given, ∀ other ∈ readModes given, mode = other

theorem words_of_shorthand (h : IsShorthand given s) : words given = [s.reading.name.toList] := by
  rw [words, h.1]
  cases s.reading <;> rfl

/-- Shorthand is one component, and it names no mode. -/
theorem not_mode_of_shorthand (h : IsShorthand given s) {part : List Char}
    (hpart : part ∈ words given) :
    part ≠ [] ∧ writeMode? part = none ∧ readMode? part = none := by
  rw [words_of_shorthand h, List.mem_singleton] at hpart
  subst hpart
  cases s.reading <;> exact ⟨by decide, rfl, rfl⟩

theorem not_namesLast_of_shorthand {other : Stage} (h : IsShorthand given s) :
    ¬ NamesLast given other := by
  intro hlast
  have hmem : s.reading.name.toList ∈ words given := by
    rw [words_of_shorthand h]
    exact List.mem_singleton_self _
  obtain ⟨hempty, hwrite, hread⟩ := not_mode_of_shorthand h hmem
  simpa [Recognised, hempty, hwrite, hread] using hlast.recognised _ hmem

/-- What a text gives that is not shorthand. -/
theorem ofText_eq_ok_iff_namesLast
    (h : Schema.ofName? (Text.lowercase (Text.trim given)) = none) :
    ofText given = .ok s ↔ NamesLast given s := by
  have hread : ∀ named, readComponents given ⟨none, none⟩ (words given) = .ok named ↔
      (∀ part ∈ words given, Recognised part) ∧
        named = ⟨(writeModes given).getLast?, (readModes given).getLast?⟩ := by
    intro named
    rw [readComponents_eq_ok_iff, Option.or_none, Option.or_none]
    rfl
  simp only [ofText, h]
  rw [← words]
  cases hcomponents : readComponents given ⟨none, none⟩ (words given) with
  | error fault =>
    refine iff_of_false nofun fun hlast ↦ ?_
    have hread := (hread _).mpr ⟨hlast.recognised, rfl⟩
    rw [hcomponents] at hread
    cases hread
  | ok named =>
    obtain ⟨hrecognised, rfl⟩ := (hread named).mp hcomponents
    have hlast : NamesLast given s ↔ (writeModes given).getLast? = some s.writing.name ∧
        (readModes given).getLast? = some s.reading.name :=
      ⟨fun hlast ↦ ⟨hlast.writing, hlast.reading⟩, fun ⟨hwrite, hread⟩ ↦
        ⟨hrecognised, hwrite, hread⟩⟩
    rw [hlast]
    cases (writeModes given).getLast? with
    | none => simp
    | some write =>
      cases (readModes given).getLast? with
      | none => simp
      | some read =>
        by_cases hboth : read = "both"
        · -- no representation has this name
          have hname : "both" ≠ s.reading.name := by
            cases s.reading <;> decide
          simp [hboth, hname]
        · simp [hboth, ofNames_eq_ok_iff]

theorem ofText_eq_ok_iff :
    ofText given = .ok s ↔ IsShorthand given s ∨ NamesLast given s := by
  cases hshort : Schema.ofName? (Text.lowercase (Text.trim given)) with
  | none =>
    have hshorthand : ¬ IsShorthand given s := by
      rintro ⟨hname, -⟩
      rw [← Schema.ofName?_eq_some_iff, hshort] at hname
      cases hname
    rw [ofText_eq_ok_iff_namesLast hshort, or_iff_right hshorthand]
  | some schema =>
    have hname := Schema.ofName?_eq_some_iff.mp hshort
    have hshorthand : IsShorthand given (only schema) := by
      rw [IsShorthand, hname]
      cases schema <;> exact ⟨rfl, rfl⟩
    rw [or_iff_left (not_namesLast_of_shorthand hshorthand)]
    have hgiven : ofText given = .ok (only schema) := by
      simp only [ofText, hshort]
    rw [hgiven, Except.ok.injEq]
    constructor
    · rintro rfl
      exact hshorthand
    · rintro ⟨hreading, hs⟩
      rw [← Schema.ofName?_eq_some_iff, hshort] at hreading
      rw [hs, Option.some.inj hreading]

/-- All entries of a list are its last one exactly if no two are different. -/
theorem forall_mem_eq_iff_of_getLast? {modes : List String} {mode : String}
    (h : modes.getLast? = some mode) :
    (∀ m ∈ modes, m = mode) ↔ ∀ m ∈ modes, ∀ other ∈ modes, m = other := by
  constructor
  · intro hall m hm other hother
    rw [hall m hm, hall other hother]
  · exact fun hconsistent m hm ↦ hconsistent m hm mode (List.mem_of_getLast? h)

theorem agreesWith_iff_consistent (h : ofText given = .ok s) :
    AgreesWith given s ↔ Consistent given := by
  rcases ofText_eq_ok_iff.mp h with hshort | hlast
  · have hnone : ∀ part ∈ words given, writeMode? part = none ∧ readMode? part = none :=
      fun part hpart ↦ (not_mode_of_shorthand hshort hpart).2
    have hwrite : writeModes given = [] :=
      List.filterMap_eq_nil_iff.mpr fun part hpart ↦ (hnone part hpart).1
    have hread : readModes given = [] :=
      List.filterMap_eq_nil_iff.mpr fun part hpart ↦ (hnone part hpart).2
    exact iff_of_true (.inl hshort) (by rw [Consistent, hwrite, hread]; exact ⟨nofun, nofun⟩)
  · rw [AgreesWith, Consistent, or_iff_right fun hshort ↦ not_namesLast_of_shorthand hshort hlast,
      forall_mem_eq_iff_of_getLast? hlast.writing, forall_mem_eq_iff_of_getLast? hlast.reading]

end Texts

/-- A text gives a stage exactly if it is shorthand for it, or each of its components is empty or
names a mode and the last mode of each kind is the one of the stage. So whatever stage a text gives
agrees with all that the text names exactly if the text names no two different modes of a kind, or
is refused: otherwise a component is overruled silently. A number gives only the stage that has all
of its stage bits, and so none where it has both read bits. -/
theorem last_modes_count (given : String) (n : Int) :
    (∀ s, ofText given = .ok s ↔ IsShorthand given s ∨ NamesLast given s) ∧
    ((∀ s, ofText given = .ok s → AgreesWith given s) ↔
      Consistent given ∨ ∀ s, ofText given ≠ .ok s) ∧
    ∀ s, ofFlags n = .ok s ↔ StageBits.ofInt n = s.bits := by
  refine ⟨fun s ↦ ofText_eq_ok_iff, ⟨fun hagrees ↦ ?_, ?_⟩, fun s ↦ ofFlags_eq_ok_iff⟩
  · by_cases hread : ∃ s, ofText given = .ok s
    · obtain ⟨s, hs⟩ := hread
      exact .inl ((agreesWith_iff_consistent hs).mp (hagrees s hs))
    · exact .inr fun s hs ↦ hread ⟨s, hs⟩
  · rintro (hconsistent | hrefused) s hs
    · exact (agreesWith_iff_consistent hs).mpr hconsistent
    · exact absurd hs (hrefused s)

/-- A text that names one mode of each kind, and the stage that agrees with it. -/
theorem both_old_read_as_named :
    ofText "write-both/read-old" = .ok ⟨.both, .old, rfl⟩ ∧
      AgreesWith "write-both/read-old" ⟨.both, .old, rfl⟩ := by
  have hgiven : ofText "write-both/read-old" = .ok ⟨.both, .old, rfl⟩ := by
    decide
  have hconsistent : Consistent "write-both/read-old" := by
    unfold Consistent
    decide
  exact ⟨hgiven, (last_modes_count "write-both/read-old" 0).2.1.mpr (.inl hconsistent) _ hgiven⟩

/-- A text that names two modes to read gives a stage that reads the second one. -/
theorem first_reading_overruled :
    ofText "write-both/read-old/read-new" = .ok ⟨.both, .new, rfl⟩ ∧
      ¬ AgreesWith "write-both/read-old/read-new" ⟨.both, .new, rfl⟩ := by
  refine ⟨by decide, ?_⟩
  unfold AgreesWith IsShorthand
  decide

end Stage

end StagedColumns
