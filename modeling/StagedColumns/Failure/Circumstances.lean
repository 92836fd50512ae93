import StagedColumns.Datum.Attribute
import StagedColumns.Datum.Listing
import StagedColumns.Signature

/-!
# The circumstances of failures

Circumstances are added to a failure after the fact, name by name. Some names have places, four of
which are listed; every other name goes into the metadata, which have a place as well, and when the
circumstances are listed the metadata are written over the four. Callers may put any value where
circumstances should be; it is taken as far as it goes, and refused when it is to be listed.
-/

set_option autoImplicit false

namespace StagedColumns

/-- The circumstances of a failure: the values in the places that have one. -/
structure Circumstances where
  places : OrderedMap Datum

namespace Circumstances

/-- The name of the type of circumstances. -/
def typeName : String :=
  "ErrorContext"

/-- The name of the place of the metadata. -/
def metadataName : String :=
  "metadata"

/-- The names of the places that are listed, in the order of the listing. -/
def listedNames : List String :=
  ["key", "stage", "owner", "operation"]

/-- The name of the place of the listing itself. A value that is put there stands in its way. -/
def listingName : String :=
  "to_dict"

/-- The names of the places that are there from the start. -/
def firstNames : List String :=
  listedNames ++ listingName :: Datum.commonNames ++ Datum.describedNames

/-- The signature of circumstances, whose places can be filled at once. -/
def signature : Signature :=
  .ofThing "ErrorContext.__init__"
    (listedNames.map (Parameter.optional · .null) ++ [.optional metadataName (.record [])]) []

/-- The circumstances with values by name. -/
def ofNamed (values : List (String × Datum)) : Except Failure Circumstances := do
  return ⟨← signature.valuesForThing [] values⟩

/-- Circumstances with the values in the listed places, where the absent value fills none. -/
def of (values : List (String × Datum)) : Circumstances :=
  ⟨(OrderedMap.ofList [(metadataName, Datum.record [])]).putAll values⟩

/-- Nothing is known of the circumstances. -/
def none : Circumstances :=
  of []

/-- There is a place of the name, apart from that of the metadata. -/
def hasPlace (c : Circumstances) (name : String) : Bool :=
  name != metadataName && (firstNames.contains name || c.places.contains name)

/-- The places of a thing of the type with a value added to the metadata, if it has any. -/
def addMetadata (type : String) (places : OrderedMap Datum) (name : String) (value : Datum) :
    Except Failure (OrderedMap Datum) :=
  match places.get? metadataName with
  | some (.record entries) =>
    .ok (places.put metadataName (.record (putEntry name value entries)))
  | some (.list _) => .error (.noValueUnderName "list")
  | some other => .error (.fixedParts other.typeName)
  | .none => .error (.noAttribute type metadataName)

/-- The circumstances with a value added under a name. -/
def add (c : Circumstances) (name : String) (value : Datum) : Except Failure Circumstances :=
  if c.hasPlace name then
    match Datum.placeRefusal? typeName name value with
    | some failure => .error failure
    | .none => .ok ⟨Datum.fillPlace c.places name value⟩
  else do return ⟨← addMetadata typeName c.places name value⟩

/-- The circumstances with values added one after the other. -/
def addAll (c : Circumstances) : List (String × Datum) → Except Failure Circumstances
  | [] => .ok c
  | (name, value) :: rest => do (← c.add name value).addAll rest

/-- The listed places that have a value, in their order. -/
def listedPlaces (c : Circumstances) : List (String × Datum) :=
  listedNames.filterMap fun name ↦
    match c.places.get? name with
    | .none | some .null => .none
    | some value => some (name, value)

/-- The entries of the metadata, if there are any. -/
def metadata (c : Circumstances) : Except Failure (List (Datum × Datum)) :=
  match c.places.get? metadataName with
  | some value => if value.truthy then value.pairs else .ok []
  | .none => .error (.noAttribute typeName metadataName)

/-- The listing of the circumstances. -/
def listing (c : Circumstances) : Except Failure Listing :=
  match c.places.get? listingName with
  | some value => .error (.notAnswering value.typeName)
  | .none => do
    return (Listing.empty.putAll (Datum.namedByTexts c.listedPlaces)).putAll (← c.metadata)

end Circumstances

/-- A value in the place of circumstances, with what is in places of its own. -/
structure Substitute where
  value : Datum
  places : OrderedMap Datum

namespace Substitute

/-- The value as it is before anything was added to it. -/
def of (value : Datum) : Substitute :=
  ⟨value, value.places⟩

/-- The value with another one added under a name, as it would be added to circumstances. -/
def add (s : Substitute) (name : String) (added : Datum) : Except Failure Substitute :=
  if name != Circumstances.metadataName &&
      (s.value.hasAttribute name || s.places.contains name) then
    match s.value.refusalUnder? name added with
    | some failure => .error failure
    | none => .ok { s with places := Datum.fillPlace s.places name added }
  else do
    return { s with places := ← Circumstances.addMetadata s.value.typeName s.places name added }

/-- The value with others added one after the other. -/
def addAll (s : Substitute) : List (String × Datum) → Except Failure Substitute
  | [] => .ok s
  | (name, added) :: rest => do (← s.add name added).addAll rest

/-- Why the value cannot be listed. -/
def refusal (s : Substitute) : Failure :=
  match s.places.get? Circumstances.listingName with
  | some other => .notAnswering other.typeName
  | none => .noAttribute s.value.typeName Circumstances.listingName

end Substitute

end StagedColumns
