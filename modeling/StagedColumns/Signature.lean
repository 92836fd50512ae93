import StagedColumns.Failure

/-!
# Signatures

What can be asked for by a name takes parameters. The parameters that are placed take arguments by
their place or by their name, the others by their name only, and a parameter with a default can do
without. Matching arguments with parameters either gives every parameter its value or finds the
first fault: names are looked at first and one after the other, then the number of placed arguments,
then what is missing.
-/

set_option autoImplicit false

namespace StagedColumns

/-- A parameter, with the value that it has without an argument. -/
structure Parameter where
  name : String
  default? : Option Datum

/-- The parameters of what can be asked for. -/
structure Signature where
  /-- The name of what is asked for, as refusals give it. -/
  callee : String
  /-- The parameters that take arguments by place or name, in order. -/
  placed : List Parameter
  /-- The parameters that take arguments by name only. -/
  named : List Parameter

/-- A parameter that needs an argument. -/
def Parameter.required (name : String) : Parameter :=
  ⟨name, none⟩

/-- A parameter that can do without an argument. -/
def Parameter.optional (name : String) (default : Datum) : Parameter :=
  ⟨name, some default⟩

namespace Signature

/-- The names of the parameters. -/
def names (s : Signature) : List String :=
  (s.placed ++ s.named).map Parameter.name

/-- Adds arguments that came by name to those that are matched already. -/
def matchNamed (s : Signature) (matched : OrderedMap Datum) :
    List (String × Datum) → Except ArgumentFault (OrderedMap Datum)
  | [] => .ok matched
  | (name, value) :: rest =>
    if !s.names.contains name then .error (.unexpected s.callee name)
    else if matched.contains name then .error (.repeated s.callee name)
    else s.matchNamed (matched.put name value) rest

/-- The names of the parameters that have neither an argument nor a default. -/
def lacking (matched : OrderedMap Datum) (parameters : List Parameter) : List String :=
  (parameters.filter fun p ↦ p.default?.isNone && !matched.contains p.name).map Parameter.name

/-- The defaults, over which the arguments that are matched are written. -/
def complete (s : Signature) (matched : OrderedMap Datum) : OrderedMap Datum :=
  (OrderedMap.ofList <| (s.placed ++ s.named).filterMap fun p ↦
    p.default?.map (p.name, ·)).merge matched

/-- The value of every parameter for arguments that came by their place and by their name. -/
def values (s : Signature) (given : List Datum) (named : List (String × Datum)) :
    Except Failure (OrderedMap Datum) :=
  Except.mapError .arguments <| do
    let byPlace := OrderedMap.ofList ((s.placed.map Parameter.name).zip given)
    let matched ← s.matchNamed byPlace named
    if s.placed.length < given.length then
      throw <| .tooMany s.callee (s.placed.filter fun p ↦ p.default?.isNone).length
        s.placed.length given.length (s.named.filter fun p ↦ matched.contains p.name).length
    match lacking matched s.placed, lacking matched s.named with
    | [], [] => return s.complete matched
    | [], names => throw (.missingNamed s.callee names)
    | names, _ => throw (.missing s.callee names)

/-- The name of the parameter for the thing itself that is asked. -/
def receiver : String :=
  "self"

/-- The signature of what is asked of a thing, which is the first argument. -/
def ofThing (callee : String) (placed named : List Parameter) : Signature :=
  ⟨callee, .required receiver :: placed, named⟩

/-- The values of the parameters for what is asked of a thing. -/
def valuesForThing (s : Signature) (given : List Datum) (named : List (String × Datum)) :
    Except Failure (OrderedMap Datum) := do
  return (← s.values (.null :: given) named).erase receiver

end Signature

end StagedColumns
