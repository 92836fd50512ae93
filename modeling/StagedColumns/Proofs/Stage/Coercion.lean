import StagedColumns.Failure.Report
import StagedColumns.Proofs.Datum.Written
import StagedColumns.Proofs.Stage.Layout
import StagedColumns.Proofs.Stage.Number

/-!
# Stages from values of any type

A stage is taken as it is, a text is read, and a number is taken by its bits
(`ofDatumWithin_eq_ok_iff`). Whatever else is given is refused by its type, a truth value like
everything else, unless it cannot be written: then there is no refusal as a stage, but the fault
that keeps the value from being written (`ofDatumWithin_of_other`). The stages that are taken as
they are come from two modes, which have to be texts and the names of the modes of a stage
(`ofModeDataWithin_eq_ok_iff`), so in those, too, what is read is written.

How much room there is for writing depends on the caller, so everything is said for any room.
-/

set_option autoImplicit false

namespace StagedColumns

theorem Datum.text?_eq_some_iff {d : Datum} {s : String} : d.text? = some s ↔ d = .text s := by
  cases d <;> simp [Datum.text?]

namespace Stage

/-- The value gives the stage: it is the stage, or a text that is shorthand for it or names its
modes last, or an integer that holds the stage's number at the places of stage bits. -/
inductive GivenBy (s : Stage) : Datum → Prop
  | itself : GivenBy s (.stage s)
  | text {given : String} (hgiven : IsShorthand given s ∨ NamesLast given s) :
      GivenBy s (.text given)
  | number {n : ℤ} (hbits : (s.flags : ℤ) = n.land 0x33) : GivenBy s (.int n)

/-- The value is of one of the types that may give a stage. -/
def MayGive : Datum → Prop
  | .stage _ | .text _ | .int _ => True
  | _ => False

/-- A refusal can carry the value. An integer is carried in hexadecimal, and an absent value is not
carried at all. -/
def CanBeCarried (room : Nat) (d : Datum) : Prop :=
  MayGive d ∨ d = .null ∨ d.Writable room

/-- What a refusal carries of a value that is of another type. -/
def carried? : Datum → Option String
  | .null => none
  | d => some d.plain

section Values

variable {room : Nat} {d : Datum} {s : Stage}

theorem GivenBy.mayGive (h : GivenBy s d) : MayGive d := by
  cases h <;> trivial

theorem ofDatumWithin_eq_bind (hother : ¬MayGive d) (hnull : d ≠ .null) :
    ofDatumWithin room d = d.writtenOrFault room >>= fun given ↦
      .error (.stage (.notInteger d.typeName (some given))) := by
  cases d with
  | stage _ | text _ | int _ => exact absurd trivial hother
  | null => exact absurd rfl hnull
  | _ => rfl

theorem carried?_of_ne_null (hnull : d ≠ .null) : carried? d = some d.plain := by
  cases d with
  | null => exact absurd rfl hnull
  | _ => rfl

/-- A value of another type is refused as a stage by its type, or a fault keeps it from being
written. -/
theorem ofDatumWithin_of_other (room : Nat) (hother : ¬MayGive d) :
    CanBeCarried room d ∧
        ofDatumWithin room d = .error (.stage (.notInteger d.typeName (carried? d))) ∨
      ¬CanBeCarried room d ∧
        ∃ fault, ofDatumWithin room d = .error (.unwritable fault) ∧ d.Keeps room fault := by
  by_cases hnull : d = .null
  · subst hnull
    exact .inl ⟨.inr (.inl rfl), rfl⟩
  have hcarried : CanBeCarried room d ↔ d.Writable room := by
    simp only [CanBeCarried, hother, hnull, false_or]
  rw [hcarried, ofDatumWithin_eq_bind hother hnull, carried?_of_ne_null hnull,
    Datum.writtenOrFault]
  rcases Datum.written_cases room d with ⟨hwritable, htext⟩ | ⟨hkept, fault, hfault, hkeeps⟩
  · rw [htext]
    exact .inl ⟨hwritable, rfl⟩
  · rw [hfault]
    exact .inr ⟨hkept, fault, rfl, hkeeps⟩

theorem ofDatumWithin_eq_ok_iff : ofDatumWithin room d = .ok s ↔ GivenBy s d := by
  by_cases hother : MayGive d
  · cases d with
    | stage other =>
      constructor
      · rintro ⟨⟩
        exact .itself
      · rintro ⟨⟩
        rfl
    | text given =>
      have hread : ofDatumWithin room (.text given) = (ofText given).mapError .stage := rfl
      rw [hread, mapError_stage_eq_ok_iff, ofText_eq_ok_iff]
      exact ⟨.text, fun | .text hgiven => hgiven⟩
    | int n =>
      have hread : ofDatumWithin room (.int n) = (ofFlags n).mapError .stage := rfl
      rw [hread, mapError_stage_eq_ok_iff, ofFlags_eq_ok_iff_flags]
      exact ⟨.number, fun | .number hbits => hbits⟩
    | _ => cases hother
  · refine iff_of_false (fun h ↦ ?_) fun h ↦ hother h.mayGive
    rcases ofDatumWithin_of_other room hother with ⟨-, hrefused⟩ | ⟨-, _, hfault, -⟩
    · rw [h] at hrefused
      cases hrefused
    · rw [h] at hfault
      cases hfault

/-- What fails only as a stage gives a stage or is refused as one. -/
theorem mapError_stage_or_refused (read : Except StageFault Stage) :
    (∃ s, (read.mapError .stage : Except Failure Stage) = .ok s) ∨
      ∃ fault, (read.mapError .stage : Except Failure Stage) = .error (.stage fault) := by
  cases read with
  | ok s => exact .inl ⟨s, rfl⟩
  | error fault => exact .inr ⟨fault, rfl⟩

theorem ofDatumWithin_of_mayGive (h : MayGive d) :
    (∃ s, ofDatumWithin room d = .ok s) ∨
      ∃ fault, ofDatumWithin room d = .error (.stage fault) := by
  cases d with
  | stage s => exact .inl ⟨s, rfl⟩
  | text given => exact mapError_stage_or_refused (ofText given)
  | int n => exact mapError_stage_or_refused (ofFlags n)
  | _ => cases h

/-- Where a value can be carried, it gives a stage or is refused as one; else it does neither. -/
theorem ofDatumWithin_cases (room : Nat) (d : Datum) :
    CanBeCarried room d ∧ ((∃ s, ofDatumWithin room d = .ok s) ∨
        ∃ fault, ofDatumWithin room d = .error (.stage fault)) ∨
      ¬CanBeCarried room d ∧
        ∃ fault, ofDatumWithin room d = .error (.unwritable fault) ∧ d.Keeps room fault := by
  by_cases hother : MayGive d
  · exact .inl ⟨.inl hother, ofDatumWithin_of_mayGive hother⟩
  · exact (ofDatumWithin_of_other room hother).imp (fun h ↦ ⟨h.1, .inr ⟨_, h.2⟩⟩) id

theorem ofDatum_mode_of_writable (h : d.Writable room) :
    GivenMode.ofDatum room d = .ok ⟨d.text?, d.shown, d.plain⟩ := by
  rw [GivenMode.ofDatum, Datum.writtenOrFault, Datum.written_of_writable h]
  rfl

theorem ofDatum_mode_of_not_writable (h : ¬d.Writable room) :
    ∃ fault, GivenMode.ofDatum room d = .error (.unwritable fault) := by
  obtain ⟨fault, hfault, -⟩ := Datum.written_of_not_writable h
  refine ⟨fault, ?_⟩
  rw [GivenMode.ofDatum, Datum.writtenOrFault, hfault]
  rfl

theorem ofModeDataWithin_eq_ok_iff {write read : Datum} :
    ofModeDataWithin room write read = .ok s ↔
      write = .text s.writing.name ∧ read = .text s.reading.name := by
  have htext (name : String) : (Datum.text name).Writable room := .inl ⟨name, rfl⟩
  by_cases hwrite : write.Writable room
  · by_cases hread : read.Writable room
    · have hgiven : ofModeDataWithin room write read =
          (ofGiven ⟨write.text?, write.shown, write.plain⟩
            ⟨read.text?, read.shown, read.plain⟩).mapError .stage := by
        rw [ofModeDataWithin, ofDatum_mode_of_writable hwrite, ofDatum_mode_of_writable hread]
        rfl
      rw [hgiven, mapError_stage_eq_ok_iff, ofGiven_eq_ok_iff]
      exact and_congr Datum.text?_eq_some_iff Datum.text?_eq_some_iff
    · obtain ⟨fault, hfault⟩ := ofDatum_mode_of_not_writable hread
      rw [ofModeDataWithin, ofDatum_mode_of_writable hwrite, hfault]
      exact iff_of_false nofun fun h ↦ hread (h.2 ▸ htext _)
  · obtain ⟨fault, hfault⟩ := ofDatum_mode_of_not_writable hwrite
    rw [ofModeDataWithin, hfault]
    exact iff_of_false nofun fun h ↦ hwrite (h.1 ▸ htext _)

end Values

/-- What comes of a value where there is so much room to write it. -/
structure ComesOf (room : Nat) (d : Datum) : Prop where
  gives (s : Stage) : ofDatumWithin room d = .ok s ↔ GivenBy s d
  /-- It gives a stage or is refused as one exactly if a refusal can carry it. -/
  stage_or_refusal : ((∃ s, ofDatumWithin room d = .ok s) ∨
    ∃ failure, ofDatumWithin room d = .error failure ∧ failure.kind? = some .invalidStage) ↔
      CanBeCarried room d
  /-- Else there is nothing but the fault that keeps it from being written. -/
  unwritable : ¬CanBeCarried room d → ∃ fault,
    ofDatumWithin room d = .error (.unwritable fault) ∧ d.Keeps room fault ∧
      (Failure.unwritable fault).kind? = none
  by_type : ¬MayGive d → CanBeCarried room d →
    ofDatumWithin room d = .error (.stage (.notInteger d.typeName (carried? d)))

theorem comesOf (room : Nat) (d : Datum) : ComesOf room d where
  gives _ := ofDatumWithin_eq_ok_iff
  stage_or_refusal := by
    rcases ofDatumWithin_cases room d with ⟨hcarried, hread⟩ | ⟨hkept, fault, hfault, -⟩
    · exact iff_of_true (hread.imp id fun ⟨_, hrefused⟩ ↦ ⟨_, hrefused, rfl⟩) hcarried
    · refine iff_of_false ?_ hkept
      rintro (⟨s, hgives⟩ | ⟨failure, hrefused, hkind⟩)
      · rw [hfault] at hgives
        cases hgives
      · rw [hfault] at hrefused
        cases hrefused
        cases hkind
  unwritable hkept := by
    rcases ofDatumWithin_cases room d with ⟨hcarried, -⟩ | ⟨-, fault, hfault, hkeeps⟩
    · exact absurd hcarried hkept
    · exact ⟨fault, hfault, hkeeps, rfl⟩
  by_type hother hcarried := by
    rcases ofDatumWithin_of_other room hother with ⟨-, hrefused⟩ | ⟨hkept, -⟩
    · exact hrefused
    · exact absurd hcarried hkept

/-- An integer of any size and sign gives a stage exactly if, in two's complement, it has a write
bit, exactly one read bit, and the write bit of what is read. The number of the stage is then the
integer at the places of stage bits, and the number of a stage gives the stage. A value of any type
gives a stage exactly if it is the stage, names it or holds its bits, so no value of another type
gives one, and in every stage what is read is written. A value gives a stage or is refused as one
exactly if a refusal can carry it. Two modes given apart make the stage that has just these modes,
if there is one. -/
theorem stage_or_refusal_iff_carried (room : Nat) (d : Datum) (s : Stage) (n : ℤ) :
    ((∃ s, ofFlags n = .ok s) ↔ IsNumber n) ∧
    (ofFlags n = .ok s ↔ (s.flags : ℤ) = n.land 0x33) ∧
    ofFlags s.flags = .ok s ∧
    ComesOf room d ∧
    (GivenBy s d → MayGive d ∧ s.writing.fills s.reading = true) ∧
    ∀ write read : Datum, ofModeDataWithin room write read = .ok s ↔
      write = .text s.writing.name ∧ read = .text s.reading.name :=
  ⟨exists_ofFlags_iff, ofFlags_eq_ok_iff_flags, ofFlags_flags s, comesOf room d,
    fun h ↦ ⟨h.mayGive, s.reads_written⟩, fun _ _ ↦ ofModeDataWithin_eq_ok_iff⟩

/-- A negative integer with bits beside those of a stage, and a list and a truth value that are
refused. -/
theorem negative_number_gives_stage :
    IsNumber (-45) ∧ ofFlags (-45) = .ok ⟨.both, .old, rfl⟩ ∧
      ofDatum (.list [.int 3]) = .error (.stage (.notInteger "list" (some "[3]"))) ∧
      ofDatum (.bool true) = .error (.stage (.notInteger "bool" (some "True"))) := by
  obtain ⟨hnumber, hbits, -, hlist, -⟩ :=
    stage_or_refusal_iff_carried Datum.usualRoom (.list [.int 3]) ⟨.both, .old, rfl⟩ (-45)
  obtain ⟨-, -, -, hbool, -⟩ :=
    stage_or_refusal_iff_carried Datum.usualRoom (.bool true) ⟨.both, .old, rfl⟩ (-45)
  have hread : ofFlags (-45) = .ok ⟨.both, .old, rfl⟩ :=
    hbits.mpr (by rw [← StageBits.toNat_ofInt]; decide)
  have hshort : Datum.AllShort [3] :=
    Datum.allShort_cons_iff.mpr ⟨Datum.lt_of_digit (by decide), Datum.allShort_nil⟩
  exact ⟨hnumber.mp ⟨_, hread⟩, hread,
    hlist.by_type id (.inr (.inr (.inr ⟨by decide, hshort⟩))),
    hbool.by_type id (.inr (.inr (.inr ⟨by decide, Datum.allShort_nil⟩)))⟩

/-- Users in each other, the innermost of which has lists in each other for a domain. -/
def deepUsers : Datum :=
  (Datum.user 1 "a")^[310] ((fun d ↦ .list [d])^[74] (.list []))

theorem roomNeeded_deepUsers : 310 * 3 + (74 * 1 + 1) ≤ deepUsers.roomNeeded := by
  have huser (d : Datum) : 3 + d.roomNeeded ≤ (Datum.user 1 "a" d).roomNeeded := by
    simp only [Datum.roomNeeded]
    omega
  have hlist (d : Datum) : 1 + d.roomNeeded ≤ (Datum.list [d]).roomNeeded := by
    simp only [Datum.roomNeeded, Datum.roomOfItems]
    omega
  have hlists := Datum.roomNeeded_iterate hlist 74 (.list [])
  exact Nat.le_trans (Nat.add_le_add_left hlists _) (Datum.roomNeeded_iterate huser 310 _)

theorem allShort_deepUsers : Datum.AllShort deepUsers.sizes := by
  have huser (d : Datum) (hd : Datum.AllShort d.sizes) :
      Datum.AllShort (Datum.user 1 "a" d).sizes :=
    Datum.allShort_cons_iff.mpr ⟨Datum.lt_of_digit (by decide), hd⟩
  have hlist (d : Datum) (hd : Datum.AllShort d.sizes) : Datum.AllShort (Datum.list [d]).sizes := by
    simpa only [Datum.sizes, Datum.sizesOfItems, List.append_nil] using hd
  exact Datum.allShort_iterate huser 310 (Datum.allShort_iterate hlist 74 Datum.allShort_nil)

/-- What keeps a list from being written comes of it instead of a refusal. -/
theorem ofDatumWithin_list_of_not (room : Nat) {items : List Datum}
    (hkept : ¬((Datum.list items).roomNeeded ≤ room ∧ Datum.AllShort (Datum.list items).sizes)) :
    ∃ fault, ofDatumWithin room (.list items) = .error (.unwritable fault) ∧
      (Datum.list items).Keeps room fault := by
  rcases ofDatumWithin_of_other room (d := .list items) id with ⟨h, -⟩ | ⟨-, hfault⟩
  · rcases h with h | h | ⟨s, h⟩ | h
    · cases h
    · cases h
    · cases h
    · exact absurd h hkept
  · exact hfault

/-- A list of values that stand too deep in each other, and a list of an integer with a digit too
many, give no stage and are not refused as stages either. -/
theorem unwritable_lists_not_refused :
    ofDatum (.list [deepUsers]) = .error (.unwritable .tooDeep) ∧
      ofDatum (.list [.int (10 ^ Datum.digitLimit)]) = .error (.unwritable .tooLong) ∧
      (Failure.unwritable .tooDeep).kind? = none ∧
      (Failure.unwritable .tooLong).kind? = none := by
  refine ⟨?_, ?_, rfl, rfl⟩
  · have hroom : Datum.usualRoom < (Datum.list [deepUsers]).roomNeeded := by
      have husers := roomNeeded_deepUsers
      simp only [Datum.roomNeeded, Datum.roomOfItems, Datum.usualRoom]
      omega
    have hshort : Datum.AllShort (Datum.list [deepUsers]).sizes := by
      simpa only [Datum.sizes, Datum.sizesOfItems, List.append_nil] using allShort_deepUsers
    obtain ⟨fault, hfault, hkeeps⟩ :=
      ofDatumWithin_list_of_not Datum.usualRoom fun h ↦ Nat.not_le.mpr hroom h.1
    cases hkeeps with
    | tooLong hlong => exact absurd hshort hlong
    | tooDeep => exact hfault
  · have hlong : ¬Datum.AllShort (Datum.list [.int (10 ^ Datum.digitLimit)]).sizes := by
      intro hall
      have hsize (count : ℕ) : ((10 : ℤ) ^ count).natAbs = Nat.pow 10 count :=
        Int.natAbs_pow 10 count
      have hlast := hall _ List.mem_cons_self
      rw [hsize] at hlast
      exact Nat.lt_irrefl _ hlast
    obtain ⟨fault, hfault, hkeeps⟩ :=
      ofDatumWithin_list_of_not Datum.usualRoom fun h ↦ hlong h.2
    cases hkeeps with
    | tooLong => exact hfault
    | tooDeep hdeep =>
      simp [Datum.roomNeeded, Datum.roomOfItems, Datum.simplePlaces, Datum.usualRoom] at hdeep

end Stage

end StagedColumns
