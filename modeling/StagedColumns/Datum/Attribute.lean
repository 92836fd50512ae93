import StagedColumns.Datum.Collection

/-!
# Attributes of data

Whatever its type, a value has something under certain names. This module lists the names by type
and says why a value refuses to have another one put under a name of its own: most types keep what
they have, a few have places that can be filled, and all keep their type.
-/

set_option autoImplicit false

namespace StagedColumns

namespace Datum

/-! ### Names by type -/

/-- Every value has something under these names. -/
def commonNames : List String :=
  ["__class__", "__delattr__", "__dir__", "__doc__", "__eq__", "__format__", "__ge__",
   "__getattribute__", "__getstate__", "__gt__", "__hash__", "__init__", "__init_subclass__",
   "__le__", "__lt__", "__ne__", "__new__", "__reduce__", "__reduce_ex__", "__repr__",
   "__setattr__", "__sizeof__", "__str__", "__subclasshook__"]

/-- Texts and bytes have something under these names. -/
def characterNames : List String :=
  ["__add__", "__contains__", "__getitem__", "__getnewargs__", "__iter__", "__len__", "__mod__",
   "__mul__", "__rmod__", "__rmul__", "capitalize", "center", "count", "endswith", "expandtabs",
   "find", "index", "isalnum", "isalpha", "isascii", "isdigit", "islower", "isspace", "istitle",
   "isupper", "join", "ljust", "lower", "lstrip", "maketrans", "partition", "removeprefix",
   "removesuffix", "replace", "rfind", "rindex", "rjust", "rpartition", "rsplit", "rstrip",
   "split", "splitlines", "startswith", "strip", "swapcase", "title", "translate", "upper",
   "zfill"]

/-- Texts have something under these names, too. -/
def textNames : List String :=
  ["casefold", "encode", "format", "format_map", "isdecimal", "isidentifier", "isnumeric",
   "isprintable"]

/-- Bytes have something under these names, too. -/
def byteNames : List String :=
  ["__bytes__", "decode", "fromhex", "hex"]

/-- Numbers have something under these names. -/
def numberNames : List String :=
  ["__abs__", "__add__", "__bool__", "__ceil__", "__divmod__", "__float__", "__floor__",
   "__floordiv__", "__getnewargs__", "__int__", "__mod__", "__mul__", "__neg__", "__pos__",
   "__pow__", "__radd__", "__rdivmod__", "__rfloordiv__", "__rmod__", "__rmul__", "__round__",
   "__rpow__", "__rsub__", "__rtruediv__", "__sub__", "__truediv__", "__trunc__",
   "as_integer_ratio", "conjugate", "imag", "real"]

/-- Integers and truth values have something under these names, too. -/
def integerNames : List String :=
  ["__and__", "__index__", "__invert__", "__lshift__", "__or__", "__rand__", "__rlshift__",
   "__ror__", "__rrshift__", "__rshift__", "__rxor__", "__xor__", "bit_count", "bit_length",
   "denominator", "from_bytes", "numerator", "to_bytes"]

/-- Floating-point numbers have something under these names, too. -/
def floatNames : List String :=
  ["__getformat__", "fromhex", "hex", "is_integer"]

/-- Lists and tuples have something under these names. -/
def sequenceNames : List String :=
  ["__add__", "__class_getitem__", "__contains__", "__getitem__", "__iter__", "__len__", "__mul__",
   "__rmul__", "count", "index"]

/-- Lists have something under these names, too. -/
def listNames : List String :=
  ["__delitem__", "__iadd__", "__imul__", "__reversed__", "__setitem__", "append", "clear", "copy",
   "extend", "insert", "pop", "remove", "reverse", "sort"]

/-- Sets have something under these names. -/
def bagNames : List String :=
  ["__and__", "__class_getitem__", "__contains__", "__iand__", "__ior__", "__isub__", "__iter__",
   "__ixor__", "__len__", "__or__", "__rand__", "__ror__", "__rsub__", "__rxor__", "__sub__",
   "__xor__", "add", "clear", "copy", "difference", "difference_update", "discard", "intersection",
   "intersection_update", "isdisjoint", "issubset", "issuperset", "pop", "remove",
   "symmetric_difference", "symmetric_difference_update", "union", "update"]

/-- Records have something under these names. -/
def recordNames : List String :=
  ["__class_getitem__", "__contains__", "__delitem__", "__getitem__", "__ior__", "__iter__",
   "__len__", "__or__", "__reversed__", "__ror__", "__setitem__", "clear", "copy", "fromkeys",
   "get", "items", "keys", "pop", "popitem", "setdefault", "update", "values"]

/-- Streams have something under these names. -/
def streamNames : List String :=
  ["__iter__", "__length_hint__", "__next__", "__setstate__"]

/-- The name for the type of a value. -/
def typeAttribute : String :=
  "__class__"

/-- The name for all that is in the places of a value. -/
def placesAttribute : String :=
  "__dict__"

/-- The name that a value with places keeps for itself. -/
def keptAttribute : String :=
  "__weakref__"

/-- Values with places have something under these names. -/
def placedNames : List String :=
  [placesAttribute, "__module__", keptAttribute]

/-- Values that are described by their parts have something under these names. -/
def describedNames : List String :=
  placedNames ++
  ["__annotations__", "__dataclass_fields__", "__dataclass_params__", "__match_args__"]

/-- Users have something under these names. -/
def userNames : List String :=
  describedNames ++ ["__post_init__", "domain", "id", "is_registered", "name"]

/-- Stages have something under these names. -/
def stageNames : List String :=
  describedNames ++
  ["__post_init__", "coerce", "flags", "from_flags", "label", "parse", "read", "reads_new",
   "reads_old", "write", "writes_new", "writes_old"]

/-- User fields and temp tables have something under these names, too. -/
def modelNames : List String :=
  placedNames ++
  ["__annotations__", "__copy__", "__deepcopy__", "__fields_set__", "__getattr__", "__iter__",
   "__pretty__", "__replace__", "__repr_args__", "__repr_name__", "__repr_recursion__",
   "__repr_str__", "__rich_repr__", "__setstate__", "__slots__", "construct", "copy", "dict",
   "from_orm", "json", "model_computed_fields", "model_config", "model_construct", "model_copy",
   "model_dump", "model_dump_json", "model_extra", "model_fields", "model_fields_set",
   "model_json_schema", "model_parametrized_name", "model_post_init", "model_rebuild",
   "model_validate", "model_validate_json", "model_validate_strings", "parse_file", "parse_obj",
   "parse_raw", "schema", "schema_json", "update_forward_refs", "validate"]

/-- The names under which values of the type have something besides the common ones, whatever is in
their places. -/
def ownNames : Datum → List String
  | .null => ["__bool__"]
  | .bool _ | .int _ => numberNames ++ integerNames
  | .float _ => numberNames ++ floatNames
  | .text _ => characterNames ++ textNames
  | .bytes _ => characterNames ++ byteNames
  | .list _ => sequenceNames ++ listNames
  | .tuple _ => "__getnewargs__" :: sequenceNames
  | .bag _ => bagNames
  | .stream _ => streamNames
  | .record _ => recordNames
  | .foreign => placedNames
  | .user .. => userNames
  | .stage _ => stageNames
  | .field _ | .tempTable _ => modelNames

/-- What a value has in places. The attributes of user fields and temp tables are there; all other
values keep what they have elsewhere. -/
def places : Datum → OrderedMap Datum
  | .field f => OrderedMap.ofList (fieldAttributes f)
  | .tempTable t => OrderedMap.ofList (tempTableAttributes t)
  | _ => .empty

/-- The value has something under the name, whatever is in its places. -/
def hasAttribute (d : Datum) (name : String) : Bool :=
  commonNames.contains name || d.ownNames.contains name

/-! ### Putting something under a name -/

/-- The parts of numbers that are numbers themselves. -/
def numericParts : Datum → List String
  | .bool _ | .int _ => ["denominator", "imag", "numerator", "real"]
  | .float _ => ["imag", "real"]
  | _ => []

/-- The name of the type that keeps the parts of a value; truth values are integers. -/
def keeperName : Datum → String
  | .bool _ => "int"
  | d => d.typeName

/-- Why a value of the type that has places does not take another one under a name. -/
def placeRefusal? (type name : String) (other : Datum) : Option Failure :=
  if name = typeAttribute then some (.notType other.typeName)
  else if name = keptAttribute then some (.notWritable type name)
  else if name = placesAttribute then
    match other with
    | .record _ => none
    | other => some (.notPlaces other.typeName)
  else none

/-- Why a value does not take another one under a name that it has. The attributes of user fields
are settled, and so is all that users and stages have. -/
def refusalUnder? (d : Datum) (name : String) (other : Datum) : Option Failure :=
  match d with
  | .user .. | .stage _ => some (.settledName name)
  | .field _ | .tempTable _ =>
    if name.toList.head? = some '_' then placeRefusal? d.typeName name other
    else some (.invalid [⟨[name], .settled⟩])
  | .foreign => placeRefusal? d.typeName name other
  | d =>
    if name = typeAttribute then some (.notType other.typeName)
    else if d.numericParts.contains name then some (.notWritable d.keeperName name)
    else some (.readOnly d.typeName name)

/-- The values in places with another one put under a name. A record under the name for them all
takes the place of them all. -/
def fillPlace (places : OrderedMap Datum) (name : String) (value : Datum) : OrderedMap Datum :=
  match value with
  | .record entries =>
    if name = placesAttribute then OrderedMap.ofList entries else places.put name value
  | value => places.put name value

end Datum

end StagedColumns
