import StagedColumns.Datum.Equality
import StagedColumns.Failure
import StagedColumns.Text.Split

/-!
# Data as collections

Where a collection is expected callers may hand in anything that can be gone through: besides lists,
tuples, sets and streams also texts, bytes, records and user fields. This module says which items
such a value has, how many they are, and which items it holds. Only a stream changes by being asked:
what was gone through is gone.
-/

set_option autoImplicit false

namespace StagedColumns

namespace Datum

/-- A text that may be absent. -/
def ofOption : Option String → Datum
  | some s => .text s
  | none => .null

/-- The attributes of a user field by name. -/
def fieldAttributes (f : UserField) : List (String × Datum) :=
  [("text_field", ofOption f.textColumn), ("actor_field", ofOption f.actorColumn),
   ("temp_table", (f.tempTable.map Datum.tempTable).getD .null),
   ("deprecated_version", ofOption f.deprecatedIn), ("removed_version", ofOption f.removedIn),
   ("former_temp_table_version", ofOption f.formerTempTableIn),
   ("component", ofOption f.component)]

/-- The attributes of a temp table by name. -/
def tempTableAttributes (t : TempTable) : List (String × Datum) :=
  [("table", .text t.name), ("pk", .text t.keyColumn), ("actor_field", .text t.actorColumn),
   ("join_pk", .text t.mainKey),
   ("extra", .record (t.copies.entries.map fun entry ↦ (entry.1, .text entry.2)))]

/-- Attributes as items. -/
def attributeItems (attributes : List (String × Datum)) : List Datum :=
  attributes.map fun part ↦ .tuple [.text part.1, part.2]

/-- The items of a value in order: the names of a record, the characters of a text, the numbers of
bytes, and the attributes of a user field and of a temp table, each in a pair with its name. -/
def items : Datum → Except Failure (List Datum)
  | .list items | .tuple items | .bag items | .stream items => .ok items
  | .record entries => .ok (entries.map fun entry ↦ .text entry.1)
  | .text s => .ok (s.toList.map fun c ↦ .text (String.singleton c))
  | .bytes data => .ok (data.map fun byte ↦ .int byte.toNat)
  | .field f => .ok (attributeItems (fieldAttributes f))
  | .tempTable t => .ok (attributeItems (tempTableAttributes t))
  | other => .error (.notIterable other.typeName)

/-- What is left of a value after all of its items were gone through. -/
def exhausted : Datum → Datum
  | .stream _ => .stream []
  | other => other

/-- The number of items, for the values that know it. -/
def count : Datum → Except Failure Nat
  | .list items | .tuple items | .bag items => .ok items.length
  | .record entries => .ok entries.length
  | .text s => .ok s.length
  | .bytes data => .ok data.length
  | other => .error (.noLength other.typeName)

/-- The items as texts. The first item that is none is reported with its place. -/
def itemTexts (place : Nat) : List Datum → Except Failure (List String)
  | [] => .ok []
  | .text s :: rest => do return s :: (← itemTexts (place + 1) rest)
  | other :: _ => .error (.itemNotText place other.typeName)

/-- The items of a value, all of which have to be texts. -/
def texts (d : Datum) : Except Failure (List String) :=
  match d.items with
  | .ok items => itemTexts 0 items
  | .error _ => .error .nothingToJoin

/-- The first item alone, for the values whose parts can be taken by their place. -/
def firstAlone : Datum → Except Failure (List Datum)
  | .list items | .tuple items => .ok (items.take 1)
  | .text s => .ok ((s.toList.take 1).map fun c ↦ .text (String.singleton c))
  | .bytes data => .ok ((data.take 1).map fun byte ↦ .int byte.toNat)
  | .record _ => .error (.changeable "slice")
  | other => .error (.noParts other.typeName)

/-- One of the items is equal to the item. -/
def isAmong (item : Datum) (items : List Datum) : Bool :=
  items.any fun other ↦ other.same item

/-- The same among items that are found by what they hold, so that an item which may change is
refused. -/
def isFound (item : Datum) (items : List Datum) : Except Failure Bool :=
  match item.changeable? with
  | none => .ok (item.isAmong items)
  | some type => .error (.changeable type)

/-- The bytes hold the item: a number that is one of them, or bytes that occur among them. -/
def isWithinBytes (item : Datum) (data : List UInt8) : Except Failure Bool :=
  match item, item.integer? with
  | .bytes part, _ =>
    .ok ((List.range (data.length + 1)).any fun place ↦ part.isPrefixOf (data.drop place))
  | .float _, _ | _, none => .error (.notWithinBytes item.typeName)
  | _, some n =>
    if 0 ≤ n ∧ n < 256 then .ok (data.any fun byte ↦ byte.toNat = n.toNat) else .error .noByte

/-- Whether the value holds the item, and what is left of the value after it was looked for. No set
holds a set. -/
def holds (d item : Datum) : Except Failure (Bool × Datum) :=
  match d with
  | .list items | .tuple items => .ok (item.isAmong items, d)
  | .bag items =>
    match item with
    | .bag _ => .ok (false, d)
    | other => do return (← other.isFound items, d)
  | .record entries => do
    return (← item.isFound (entries.map fun entry ↦ .text entry.1), d)
  | .stream items =>
    let rest := items.dropWhile fun other ↦ !other.same item
    .ok (!rest.isEmpty, .stream rest.tail)
  | .text s =>
    match item with
    | .text part => .ok (Text.occursIn part s, d)
    | other => .error (.notWithinText other.typeName)
  | .bytes data => do return (← item.isWithinBytes data, d)
  | .field f => .ok (item.isAmong (attributeItems (fieldAttributes f)), d)
  | .tempTable t => .ok (item.isAmong (attributeItems (tempTableAttributes t)), d)
  | other => .error (.holdsNothing other.typeName)

/-- Named values with the names as values. -/
def namedByTexts (entries : List (String × Datum)) : List (Datum × Datum) :=
  entries.map fun entry ↦ (.text entry.1, entry.2)

/-- The pairs that items are. Each has to have two items of its own, the first one being a name,
which can be any value that does not change. -/
def itemPairs (place : Nat) : List Datum → Except Failure (List (Datum × Datum))
  | [] => .ok []
  | item :: rest =>
    match item.items with
    | .error _ => .error (.itemNotPair place)
    | .ok [name, value] =>
      match name.changeable? with
      | some type => .error (.changeable type)
      | none => do return (name, value) :: (← itemPairs (place + 1) rest)
    | .ok items => .error (.itemNotPairLength place items.length)

/-- The entries of a record, or the pairs that another value consists of. -/
def pairs (d : Datum) : Except Failure (List (Datum × Datum)) :=
  match d with
  | .record entries => .ok (namedByTexts entries)
  | other => do itemPairs 0 (← other.items)

end Datum

end StagedColumns
