import StagedColumns.Datum

/-!
# Equal data and repetitions

Values are compared by what they stand for: truth values are the numbers zero and one, an integer
equals a floating-point number of the same value, sequences are equal item by item, and records name
by name. Streams and unknown values equal nothing. Where repetitions are to be left out, a list, a
set or a record is refused, wherever it stands inside a value, since it may change later.
-/

set_option autoImplicit false

namespace StagedColumns

namespace Datum

/-- The integer that the value is equal to, for truth values and numbers. -/
def integer? : Datum → Option Int
  | .bool b => some (if b then 1 else 0)
  | .int n => some n
  | .float x => x.integer?
  | _ => none

/-- Whether the value is less than a natural number, for truth values and numbers. -/
def isBelow? (n : Nat) : Datum → Option Bool
  | .float x => some (x.isBelow n)
  | d => d.integer?.map fun k ↦ k < (n : Int)

mutual

/-- The values are equal. -/
def same : Datum → Datum → Bool
  | .null, .null => true
  | .text s, .text t => s == t
  | .bytes a, .bytes b => a == b
  | .list items, .list others => sameItems items others
  | .tuple items, .tuple others => sameItems items others
  | .bag items, .bag others => items.length == others.length && allWithin others items
  | .record entries, .record others =>
    entries.length == others.length && sameEntries others entries
  | .user id name domain, .user otherId otherName otherDomain =>
    id == otherId && name == otherName && domain.same otherDomain
  | .stage s, .stage t => s == t
  | .field f, .field g => f == g
  | .tempTable t, .tempTable u => t == u
  | .float x, .float y => x.same y
  | a, b =>
    match a.integer?, b.integer? with
    | some m, some n => m == n
    | _, _ => false
termination_by structural a => a

/-- The items are equal one by one. -/
def sameItems : List Datum → List Datum → Bool
  | [], [] => true
  | a :: rest, b :: others => a.same b && sameItems rest others
  | _, _ => false
termination_by structural items => items

/-- Each item is equal to one of the others. -/
def allWithin (others : List Datum) : List Datum → Bool
  | [] => true
  | item :: rest => others.any item.same && allWithin others rest
termination_by structural items => items

/-- Each entry has an equal value under its name in the others. -/
def sameEntries (others : List (String × Datum)) : List (String × Datum) → Bool
  | [] => true
  | (name, value) :: rest =>
    (match others.lookup name with
      | some other => value.same other
      | none => false) && sameEntries others rest
termination_by structural entries => entries

end

mutual

/-- The type of the first part of the value that is refused where repetitions are left out. -/
def changeable? : Datum → Option String
  | .list _ => some "list"
  | .bag _ => some "set"
  | .record _ => some "dict"
  | .tuple items => changeableItem? items
  | .user _ _ domain => domain.changeable?
  | .field f => if f.tempTable.isSome then some "dict" else none
  | .tempTable _ => some "dict"
  | _ => none
termination_by structural d => d

/-- The same of the first item that has such a part. -/
def changeableItem? : List Datum → Option String
  | [] => none
  | item :: rest =>
    match item.changeable? with
    | some type => some type
    | none => changeableItem? rest
termination_by structural items => items

end

/-- The items without repetitions, the first of equal items staying; or the type that prevents
comparing them. -/
def distinctFrom (kept : List Datum) : List Datum → Except String (List Datum)
  | [] => .ok kept
  | item :: rest =>
    match item.changeable? with
    | some type => .error type
    | none =>
      if kept.any fun earlier ↦ earlier.same item then distinctFrom kept rest
      else distinctFrom (kept ++ [item]) rest

/-- The items in order without repetitions. -/
def distinct (items : List Datum) : Except String (List Datum) :=
  distinctFrom [] items

end Datum

end StagedColumns
