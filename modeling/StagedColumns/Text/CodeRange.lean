/-!
# Ranges of characters

Properties of characters are kept as sorted lists of closed ranges of code points, and the case maps
as runs of code points that are all moved by the same distance. This module reads such tables;
the tables themselves stand in the modules named for the property.
-/

set_option autoImplicit false

namespace StagedColumns.Text

/-- The code point lies in one of the closed ranges. -/
def inRanges (ranges : List (Nat × Nat)) (code : Nat) : Bool :=
  ranges.any fun range ↦ range.1 ≤ code && code ≤ range.2

/-- Code points `first`, `first + step`, …, `last`, each mapped to itself plus `shift`. -/
structure CaseRun where
  first : Nat
  last : Nat
  step : Nat
  shift : Int
deriving DecidableEq

/-- The code point is one of those the run maps. -/
def CaseRun.covers (run : CaseRun) (code : Nat) : Bool :=
  run.first ≤ code && code ≤ run.last && (code - run.first) % run.step == 0

/-- Where the runs send a code point: the first run that covers it decides, and a code point that no
run covers stays where it is. -/
def shifted (runs : List CaseRun) (code : Nat) : Nat :=
  match runs.find? fun run ↦ run.covers code with
  | some run => (code + run.shift).toNat
  | none => code

end StagedColumns.Text
