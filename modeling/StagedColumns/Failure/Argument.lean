import StagedColumns.Text.Quoted

/-!
# Faults of arguments

Whoever asks for something by a name hands over arguments, some by their place and some by their
name. This module names the ways in which they can fail to fit what is asked for.
-/

set_option autoImplicit false

namespace StagedColumns

/-- Why arguments do not fit. Every fault carries the name of what was asked for. -/
inductive ArgumentFault
  /-- No parameter has the name of an argument. -/
  | unexpected (callee name : String)
  /-- A parameter has two arguments. -/
  | repeated (callee name : String)
  /-- More arguments came by their place than the most that there may be. Of the arguments that can
  only come by name, `named` came. -/
  | tooMany (callee : String) (least most given named : Nat)
  /-- Parameters that take arguments by their place have none. -/
  | missing (callee : String) (names : List String)
  /-- Parameters that take arguments by name only have none. -/
  | missingNamed (callee : String) (names : List String)
deriving DecidableEq

namespace ArgumentFault

/-- The ending of a word for a number of things. -/
def plural (n : Nat) : String :=
  if n = 1 then "" else "s"

/-- Names in a row, the last one after the word for both. -/
def listed : List String → String
  | [] => ""
  | [name] => name
  | [name, last] => name ++ " and " ++ last
  | [name, other, last] => name ++ ", " ++ other ++ ", and " ++ last
  | name :: rest => name ++ ", " ++ listed rest

/-- What is said of missing arguments. -/
def lack (callee kind : String) (names : List String) : String :=
  callee ++ "() missing " ++ toString names.length ++ " required " ++ kind ++ " argument" ++
    plural names.length ++ ": " ++ listed (names.map Text.quoted)

/-- What is said of arguments that came by name besides too many others. -/
def besides (given named : Nat) : String :=
  if named = 0 then ""
  else
    " positional argument" ++ plural given ++ " (and " ++ toString named ++
      " keyword-only argument" ++ plural named ++ ")"

/-- How many arguments there may be. -/
def range (least most : Nat) : String :=
  if least = most then toString most else "from " ++ toString least ++ " to " ++ toString most

/-- What the fault says. -/
def message : ArgumentFault → String
  | unexpected callee name =>
    callee ++ "() got an unexpected keyword argument '" ++ name ++ "'"
  | repeated callee name => callee ++ "() got multiple values for argument '" ++ name ++ "'"
  | tooMany callee least most given named =>
    callee ++ "() takes " ++ range least most ++ " positional argument" ++
      (if least = most then plural most else "s") ++ " but " ++ toString given ++
      besides given named ++ (if given = 1 ∧ named = 0 then " was" else " were") ++ " given"
  | missing callee names => lack callee "positional" names
  | missingNamed callee names => lack callee "keyword-only" names

end ArgumentFault

end StagedColumns
