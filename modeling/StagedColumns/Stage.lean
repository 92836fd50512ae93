import StagedColumns.Text.Digit

/-!
# Migration stages

A user column has two representations: the old one keeps a user's id and name in the row, the new
one a reference to a row of the actor table. A stage of the migration says which representations
every write fills and which one reads consult. Reads never consult a representation that is not
written, and the type of stages holds only such combinations: `old/old`, `both/old`, `both/new`
and `new/new`.

A stage is also written as a number: one bit for each written representation and one for the
representation read.
-/

set_option autoImplicit false

namespace StagedColumns

/-- A representation of user references. -/
inductive Schema
  | old
  | new
deriving DecidableEq

/-- What writes fill. -/
inductive Writing
  | old
  | new
  | both
deriving DecidableEq

/-- The name of a representation. -/
def Schema.name : Schema → String
  | .old => "old"
  | .new => "new"

/-- The representation of a name. -/
def Schema.ofName? (name : String) : Option Schema :=
  if name = "old" then some .old else if name = "new" then some .new else none

namespace Writing

/-- The name of what writes fill. -/
def name : Writing → String
  | .old => "old"
  | .new => "new"
  | .both => "both"

/-- What writes fill, from its name. -/
def ofName? (name : String) : Option Writing :=
  if name = "old" then some .old
  else if name = "new" then some .new
  else if name = "both" then some .both
  else none

/-- Writes fill the representation. -/
def fills : Writing → Schema → Bool
  | .both, _ => true
  | .old, .old => true
  | .new, .new => true
  | _, _ => false

end Writing

/-- A stage of the migration: what is written and what is read. -/
structure Stage where
  writing : Writing
  reading : Schema
  reads_written : writing.fills reading = true
deriving DecidableEq

namespace Stage

/-- Only the one representation is written and read. -/
def only : Schema → Stage
  | .old => ⟨.old, .old, rfl⟩
  | .new => ⟨.new, .new, rfl⟩

/-- Writes fill the old representation. -/
def writesOld (s : Stage) : Bool :=
  s.writing.fills .old

/-- Writes fill the new representation. -/
def writesNew (s : Stage) : Bool :=
  s.writing.fills .new

/-- Reads consult the old representation. -/
def readsOld (s : Stage) : Bool :=
  s.reading = .old

/-- Reads consult the new representation. -/
def readsNew (s : Stage) : Bool :=
  s.reading = .new

/-- How a combination is written, valid or not. -/
def labelOf (writing : Writing) (reading : Schema) : String :=
  "write-" ++ writing.name ++ "/read-" ++ reading.name

/-- How a stage is written. -/
def label (s : Stage) : String :=
  labelOf s.writing s.reading

end Stage

/-- The bits of a stage number. -/
structure StageBits where
  writeOld : Bool
  readOld : Bool
  writeNew : Bool
  readNew : Bool
deriving DecidableEq

namespace StageBits

/-- The number with exactly these bits. -/
def toNat (bits : StageBits) : Nat :=
  (if bits.writeOld then 0x01 else 0) + (if bits.readOld then 0x02 else 0) +
    (if bits.writeNew then 0x10 else 0) + (if bits.readNew then 0x20 else 0)

/-- The stage bits of an integer in two's complement, whatever its other bits are. The stage bits
are among the lowest six, so the remainder modulo 64 holds them. -/
def ofInt (n : Int) : StageBits :=
  let low := (n % 64).toNat
  ⟨low.testBit 0, low.testBit 1, low.testBit 4, low.testBit 5⟩

/-- What the write bits ask for. -/
def writing? (bits : StageBits) : Option Writing :=
  match bits.writeOld, bits.writeNew with
  | true, true => some .both
  | true, false => some .old
  | false, true => some .new
  | false, false => none

end StageBits

/-- The bits of a stage. -/
def Stage.bits (s : Stage) : StageBits :=
  ⟨s.writesOld, s.readsOld, s.writesNew, s.readsNew⟩

/-- The number of a stage. -/
def Stage.flags (s : Stage) : Nat :=
  s.bits.toNat

end StagedColumns
