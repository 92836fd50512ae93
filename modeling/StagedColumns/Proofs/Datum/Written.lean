import Mathlib.Logic.Function.Iterate
import StagedColumns.Datum.Written

/-!
# Which values can be written

The places that writing a value takes (`roomNeeded`) and the integers that it writes (`sizes`) do not
depend on what is met first. They decide whether a value can be written, and each fault shows in one
of them (`written_cases`). Both are known for values that stand in each other any number of times
(`roomNeeded_iterate`, `allShort_iterate`).
-/

set_option autoImplicit false

namespace StagedColumns.Datum

mutual

/-- The places that it takes to write the value. -/
def roomNeeded : Datum → Nat
  | .list items | .tuple items => 1 + roomOfItems items
  | .bag items => bagPlaces items + roomOfItems items
  | .record entries => 1 + roomOfEntries entries
  | .user _ _ domain => 3 + max 1 domain.roomNeeded
  | d => d.simplePlaces
termination_by structural d => d

/-- The places that the item takes that takes most. -/
def roomOfItems : List Datum → Nat
  | [] => 0
  | item :: rest => max item.roomNeeded (roomOfItems rest)
termination_by structural items => items

/-- The places that the value takes that takes most. -/
def roomOfEntries : List (String × Datum) → Nat
  | [] => 0
  | (_, value) :: rest => max value.roomNeeded (roomOfEntries rest)
termination_by structural entries => entries

end

mutual

/-- The integers that are written in decimals, without their signs. -/
def sizes : Datum → List Nat
  | .int n => [n.natAbs]
  | .list items | .tuple items | .bag items => sizesOfItems items
  | .record entries => sizesOfEntries entries
  | .user id _ domain => id :: domain.sizes
  | _ => []
termination_by structural d => d

/-- The integers in the items. -/
def sizesOfItems : List Datum → List Nat
  | [] => []
  | item :: rest => item.sizes ++ sizesOfItems rest
termination_by structural items => items

/-- The integers in the values. -/
def sizesOfEntries : List (String × Datum) → List Nat
  | [] => []
  | (_, value) :: rest => value.sizes ++ sizesOfEntries rest
termination_by structural entries => entries

end

/-- No integer has too many digits. -/
def AllShort (sizes : List Nat) : Prop :=
  ∀ size ∈ sizes, size < Nat.pow 10 digitLimit

theorem allShort_nil : AllShort [] :=
  nofun

theorem allShort_cons_iff {size : Nat} {sizes : List Nat} :
    AllShort (size :: sizes) ↔ size < Nat.pow 10 digitLimit ∧ AllShort sizes :=
  List.forall_mem_cons

theorem lt_pow_of_digit {size count : Nat} (h : size < 10) (hsome : count ≠ 0) :
    size < Nat.pow 10 count :=
  Nat.lt_of_lt_of_le h (Nat.le_self_pow hsome 10)

/-- An integer of one digit is short. -/
theorem lt_of_digit {size : Nat} (h : size < 10) : size < Nat.pow 10 digitLimit :=
  lt_pow_of_digit h (by decide)

/-- What a check comes to where so many places are needed and such integers are written. -/
inductive Decides (room places : Nat) (sizes : List Nat) : Except WritingFault Unit → Prop
  | ok (hroom : places ≤ room) (hshort : AllShort sizes) : Decides room places sizes (.ok ())
  | tooLong (hlong : ¬AllShort sizes) : Decides room places sizes (.error .tooLong)
  | tooDeep (hdeep : room < places) : Decides room places sizes (.error .tooDeep)

namespace Decides

variable {room places more : Nat} {sizes others : List Nat} {check next : Except WritingFault Unit}

/-- Checks one after the other need the room of the one that needs most. -/
theorem andThen (hcheck : Decides room places sizes check)
    (hnext : Decides room more others next) :
    Decides room (max places more) (sizes ++ others) (do check; next) := by
  cases hcheck with
  | ok hroom hshort =>
    cases hnext with
    | ok hmore hothers =>
      refine .ok (Nat.max_le.mpr ⟨hroom, hmore⟩) fun size hsize ↦ ?_
      exact (List.mem_append.mp hsize).elim (hshort size) (hothers size)
    | tooLong hlong =>
      exact .tooLong fun hall ↦ hlong fun size hsize ↦ hall size (List.mem_append_right _ hsize)
    | tooDeep hdeep => exact .tooDeep (Nat.lt_of_lt_of_le hdeep (Nat.le_max_right ..))
  | tooLong hlong =>
    exact .tooLong fun hall ↦ hlong fun size hsize ↦ hall size (List.mem_append_left _ hsize)
  | tooDeep hdeep => exact .tooDeep (Nat.lt_of_lt_of_le hdeep (Nat.le_max_left ..))

/-- Places that are taken before a check are needed besides those of the check. -/
theorem afterRoom {taken : Nat} {check : Nat → Except WritingFault Unit}
    (hcheck : ∀ inside, Decides inside places sizes (check inside)) :
    Decides room (taken + places) sizes (takeRoom taken room >>= check) := by
  unfold takeRoom
  split
  · next htaken =>
    have hinside := hcheck (room - taken)
    show Decides room (taken + places) sizes (check (room - taken))
    generalize check (room - taken) = outcome at hinside ⊢
    cases hinside with
    | ok hroom hshort => exact .ok (by omega) hshort
    | tooLong hlong => exact .tooLong hlong
    | tooDeep hdeep => exact .tooDeep (by omega)
  · exact .tooDeep (by omega)

end Decides

theorem decides_takeRoom (places room : Nat) :
    Decides room places [] (do let _ ← takeRoom places room) :=
  .afterRoom fun _ ↦ .ok (Nat.zero_le _) allShort_nil

theorem decides_checkDigits (room size : Nat) : Decides room 0 [size] (checkDigits size) := by
  unfold checkDigits
  split
  · next hshort => exact .ok (Nat.zero_le _) (allShort_cons_iff.mpr ⟨hshort, allShort_nil⟩)
  · next hlong => exact .tooLong fun hall ↦ hlong (hall size List.mem_cons_self)

theorem decides_checkInteger (size room : Nat) : Decides room 1 [size] (checkInteger size room) :=
  .afterRoom fun inside ↦ decides_checkDigits inside size

mutual

theorem decides_checkWriting (d : Datum) (room : Nat) :
    Decides room d.roomNeeded d.sizes (d.checkWriting room) := by
  cases d with
  | int n => exact decides_checkInteger n.natAbs room
  | list items => exact .afterRoom fun inside ↦ decides_checkItems items inside
  | tuple items => exact .afterRoom fun inside ↦ decides_checkItems items inside
  | bag items => exact .afterRoom fun inside ↦ decides_checkItems items inside
  | record entries => exact .afterRoom fun inside ↦ decides_checkEntries entries inside
  | user id name domain =>
    exact .afterRoom fun inside ↦
      (decides_checkInteger id inside).andThen (decides_checkWriting domain inside)
  | _ => exact decides_takeRoom _ room
termination_by structural d

theorem decides_checkItems (items : List Datum) (room : Nat) :
    Decides room (roomOfItems items) (sizesOfItems items) (checkItems items room) := by
  cases items with
  | nil => exact .ok (Nat.zero_le _) allShort_nil
  | cons item rest => exact (decides_checkWriting item room).andThen (decides_checkItems rest room)
termination_by structural items

theorem decides_checkEntries (entries : List (String × Datum)) (room : Nat) :
    Decides room (roomOfEntries entries) (sizesOfEntries entries)
      (checkEntries entries room) := by
  cases entries with
  | nil => exact .ok (Nat.zero_le _) allShort_nil
  | cons entry rest =>
    obtain ⟨name, value⟩ := entry
    exact (decides_checkWriting value room).andThen (decides_checkEntries rest room)
termination_by structural entries

end

/-! ### Writing -/

/-- The value can be written where there is so much room. -/
def Writable (room : Nat) (d : Datum) : Prop :=
  (∃ s, d = .text s) ∨ d.roomNeeded ≤ room ∧ AllShort d.sizes

/-- The fault keeps the value from being written. -/
inductive Keeps (room : Nat) (d : Datum) : WritingFault → Prop
  | tooLong (hlong : ¬AllShort d.sizes) : Keeps room d .tooLong
  | tooDeep (hdeep : room < d.roomNeeded) : Keeps room d .tooDeep

theorem written_of_ne_text {d : Datum} (room : Nat) (htext : ∀ s, d ≠ .text s) :
    d.written room = (do d.checkWriting room; return d.plain) := by
  cases d with
  | text s => exact absurd rfl (htext s)
  | _ => rfl

/-- A value is written as itself, or a fault keeps it from being written. -/
theorem written_cases (room : Nat) (d : Datum) :
    d.Writable room ∧ d.written room = .ok d.plain ∨
      ¬d.Writable room ∧ ∃ fault, d.written room = .error fault ∧ d.Keeps room fault := by
  by_cases htext : ∃ s, d = .text s
  · obtain ⟨s, rfl⟩ := htext
    exact .inl ⟨.inl ⟨s, rfl⟩, rfl⟩
  have hwritable : d.Writable room ↔ d.roomNeeded ≤ room ∧ AllShort d.sizes := or_iff_right htext
  have hdecides := decides_checkWriting d room
  rw [written_of_ne_text room fun s hs ↦ htext ⟨s, hs⟩, hwritable]
  generalize d.checkWriting room = check at hdecides
  cases hdecides with
  | ok hroom hshort => exact .inl ⟨⟨hroom, hshort⟩, rfl⟩
  | tooLong hlong => exact .inr ⟨fun h ↦ hlong h.2, _, rfl, .tooLong hlong⟩
  | tooDeep hdeep => exact .inr ⟨fun h ↦ Nat.not_le.mpr hdeep h.1, _, rfl, .tooDeep hdeep⟩

theorem written_of_writable {room : Nat} {d : Datum} (h : d.Writable room) :
    d.written room = .ok d.plain :=
  (written_cases room d).elim And.right fun hkept ↦ absurd h hkept.1

theorem written_of_not_writable {room : Nat} {d : Datum} (h : ¬d.Writable room) :
    ∃ fault, d.written room = .error fault ∧ d.Keeps room fault :=
  (written_cases room d).elim (fun hwritten ↦ absurd hwritten.1 h) And.right

/-! ### Values in each other -/

section Iterate

variable {wrap : Datum → Datum}

/-- Each value around another one takes its room. -/
theorem roomNeeded_iterate {taken : Nat} (hwrap : ∀ d, taken + d.roomNeeded ≤ (wrap d).roomNeeded)
    (count : Nat) (d : Datum) : count * taken + d.roomNeeded ≤ (wrap^[count] d).roomNeeded := by
  induction count with
  | zero => simp
  | succ count ih =>
    have hlast := hwrap (wrap^[count] d)
    rw [Function.iterate_succ_apply', Nat.succ_mul]
    omega

theorem allShort_iterate (hwrap : ∀ d, AllShort d.sizes → AllShort (wrap d).sizes)
    (count : Nat) {d : Datum} (hd : AllShort d.sizes) : AllShort (wrap^[count] d).sizes :=
  Function.Iterate.rec (fun d : Datum ↦ AllShort d.sizes) hd hwrap count

end Iterate

end StagedColumns.Datum
