import StagedColumns.Datum.Shown

/-!
# What keeps a value from being written

`Datum.shown` gives the text of any value. To write that text down is not possible for every value,
though. An integer of more than `Datum.digitLimit` digits is not written in decimals. And a value is
written while the value around it is being written, which takes room: one place for most values, two
for a set that is not empty, three for a user, and more for a value that is written by its
attributes (`simplePlaces`). Where no room is left, writing fails. How much there is depends on how
deep a caller is in calls already.

A value is written from left to right, and what is met first keeps it from being written. These
limits are observed where a value is refused as a stage; messages about anything else are given
without them.
-/

set_option autoImplicit false

namespace StagedColumns

namespace Datum

/-- What keeps a value from being written. -/
inductive WritingFault
  /-- An integer has too many digits. -/
  | tooLong
  /-- Values stand too deep in each other. -/
  | tooDeep
deriving DecidableEq

/-- The number of digits that an integer may have to be written in decimals. -/
def digitLimit : Nat :=
  4300

namespace WritingFault

/-- What the fault says. -/
def message : WritingFault → String
  | tooLong => "Exceeds the limit (" ++ toString digitLimit ++ " digits) for integer string " ++
      "conversion; use sys.set_int_max_str_digits() to increase the limit"
  | tooDeep => "maximum recursion depth exceeded while getting the repr of an object"

end WritingFault

/-- The room that is left when so many places are taken. -/
def takeRoom (places room : Nat) : Except WritingFault Nat :=
  if places ≤ room then .ok (room - places) else .error .tooDeep

/-- Whether an integer can be written in decimals. -/
def checkDigits (size : Nat) : Except WritingFault Unit :=
  if size < Nat.pow 10 digitLimit then .ok () else .error .tooLong

/-- Whether an integer can be written where there is so much room. -/
def checkInteger (size room : Nat) : Except WritingFault Unit := do
  let _ ← takeRoom 1 room
  checkDigits size

/-- The places that it takes to write a value that has no values of any type in it. -/
def simplePlaces : Datum → Nat
  | .stage _ | .tempTable _ => 6
  | .field f => if f.tempTable.isSome then 10 else 6
  | _ => 1

/-- The places that a set takes, apart from its items. -/
def bagPlaces (items : List Datum) : Nat :=
  if items.isEmpty then 1 else 2

mutual

/-- Whether the value can be written in full where there is so much room. -/
def checkWriting : Datum → Nat → Except WritingFault Unit
  | .int n, room => checkInteger n.natAbs room
  | .list items, room | .tuple items, room => do checkItems items (← takeRoom 1 room)
  | .bag items, room => do checkItems items (← takeRoom (bagPlaces items) room)
  | .record entries, room => do checkEntries entries (← takeRoom 1 room)
  | .user id _ domain, room => do
    let inside ← takeRoom 3 room
    checkInteger id inside
    domain.checkWriting inside
  | d, room => do let _ ← takeRoom d.simplePlaces room
termination_by structural d => d

/-- Whether each item can be written. -/
def checkItems : List Datum → Nat → Except WritingFault Unit
  | [], _ => .ok ()
  | item :: rest, room => do
    item.checkWriting room
    checkItems rest room
termination_by structural items => items

/-- Whether the value of each entry can be written. -/
def checkEntries : List (String × Datum) → Nat → Except WritingFault Unit
  | [], _ => .ok ()
  | (_, value) :: rest, room => do
    value.checkWriting room
    checkEntries rest room
termination_by structural entries => entries

end

/-- The value written as itself where there is so much room. A text is there already. -/
def written (room : Nat) : Datum → Except WritingFault String
  | .text s => .ok s
  | d => do
    d.checkWriting room
    return d.plain

/-- The room that there is for callers who are not deep in calls. -/
def usualRoom : Nat :=
  990

end Datum

end StagedColumns
