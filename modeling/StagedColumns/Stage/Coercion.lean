import StagedColumns.Failure

/-!
# Stages from values

Where a stage is expected callers may give a stage, a text or a number, and nothing else; a truth
value is not taken for a number. A refusal carries the value, which is written for that. So for a
value that cannot be written there is no refusal, but the fault that keeps it from being written.
-/

set_option autoImplicit false

namespace StagedColumns

/-- The value written as itself where there is so much room. -/
def Datum.writtenOrFault (room : Nat) (d : Datum) : Except Failure String :=
  (d.written room).mapError .unwritable

/-- A mode that is given as a value. -/
def GivenMode.ofDatum (room : Nat) (d : Datum) : Except Failure GivenMode := do
  return ⟨d.text?, d.shown, ← d.writtenOrFault room⟩

namespace Stage

/-- The stage of two modes given as values, where there is so much room to write them. -/
def ofModeDataWithin (room : Nat) (write read : Datum) : Except Failure Stage := do
  let writing ← GivenMode.ofDatum room write
  let reading ← GivenMode.ofDatum room read
  (ofGiven writing reading).mapError .stage

/-- The stage of two modes given as values. -/
def ofModeData (write read : Datum) : Except Failure Stage :=
  ofModeDataWithin Datum.usualRoom write read

/-- The stage of a value that has to be a number, where there is so much room to write it. -/
def ofFlagsDatumWithin (room : Nat) : Datum → Except Failure Stage
  | .int n => (ofFlags n).mapError .stage
  | .null => .error (.stage (.notInteger Datum.null.typeName none))
  | other => do
    let given ← other.writtenOrFault room
    .error (.stage (.notInteger other.typeName (some given)))

/-- The stage of a value that has to be a number. -/
def ofFlagsDatum (d : Datum) : Except Failure Stage :=
  ofFlagsDatumWithin Datum.usualRoom d

/-- The stage that a value gives, where there is so much room to write it. -/
def ofDatumWithin (room : Nat) : Datum → Except Failure Stage
  | .stage s => .ok s
  | .text s => (ofText s).mapError .stage
  | other => ofFlagsDatumWithin room other

/-- The stage that a value gives. -/
def ofDatum (d : Datum) : Except Failure Stage :=
  ofDatumWithin Datum.usualRoom d

end Stage

end StagedColumns
