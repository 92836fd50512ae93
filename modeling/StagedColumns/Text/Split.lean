/-!
# Cutting texts apart

Texts are cut at every character of a class, and a part is recognised by what it starts with.
Cutting loses nothing but the separators: there is always one part more than there are separators,
so an empty text has one empty part.
-/

set_option autoImplicit false

namespace StagedColumns.Text

/-- The parts between the characters that `separates` holds of. -/
def splitWhere (separates : Char → Bool) : List Char → List (List Char)
  | [] => [[]]
  | c :: rest =>
    if separates c then [] :: splitWhere separates rest
    else
      match splitWhere separates rest with
      | part :: parts => (c :: part) :: parts
      | [] => [[c]]

/-- The parts between the occurrences of one character. -/
def splitOn (separator : Char) (cs : List Char) : List (List Char) :=
  splitWhere (· == separator) cs

/-- What follows `lead`, when the text starts with it. -/
def after? (lead : String) (cs : List Char) : Option (List Char) :=
  lead.toList.isPrefixOf? cs

/-- The texts before and after the first place where `part` occurs. -/
def cutAt? (part : List Char) : List Char → Option (List Char × List Char)
  | [] => if part = [] then some ([], []) else none
  | c :: rest =>
    match part.isPrefixOf? (c :: rest) with
    | some later => some ([], later)
    | none => (cutAt? part rest).map fun halves ↦ (c :: halves.1, halves.2)

/-- The text occurs in the other one. -/
def occursIn (part whole : String) : Bool :=
  (cutAt? part.toList whole.toList).isSome

/-- The text without `tail`, when it ends with it. -/
def before? (tail : String) (s : String) : Option String :=
  (tail.toList.reverse.isPrefixOf? s.toList.reverse).map fun cs ↦ String.ofList cs.reverse

end StagedColumns.Text
