import StagedColumns.Text.Digit
import StagedColumns.Text.Split

/-!
# Floating-point numbers as they are written

A floating-point number is carried by its text: the shortest decimal that reads back as the same
number, with an exponent from ten to the sixteenth on, or `nan`, `inf` and `-inf`. Two different
texts are two different numbers, the two zeros apart; what remains to be known of a number is the
integer that it equals, if there is one, and which natural numbers it is less than.
-/

set_option autoImplicit false

namespace StagedColumns

/-- A floating-point number, by its shortest text. -/
structure Floating where
  text : String
deriving DecidableEq

/-- The natural number nearest to `n` among those of 53 significant bits, ties to the even one. This
is the number that the text of `n` reads back as. -/
def nearestDouble (n : Nat) : Nat :=
  let dropped := n.log2 - 52
  if dropped = 0 then n
  else
    let unit := Nat.pow 2 dropped
    let quotient := n / unit
    let twice := 2 * (n % unit)
    if twice > unit ∨ (twice = unit ∧ quotient % 2 = 1) then (quotient + 1) * unit
    else quotient * unit

namespace Floating

/-- The number is not a number. -/
def isNaN (x : Floating) : Bool :=
  x.text = "nan"

/-- The natural number that a text without a sign denotes, if it denotes one. -/
def magnitude? (cs : List Char) : Option Nat := do
  let (mantissa, exponent) ←
    match Text.splitOn 'e' cs with
    | [mantissa] => some (mantissa, 0)
    | [mantissa, '+' :: digits] =>
      (Text.readDigits Text.asciiDigitValue? 10 digits).map (mantissa, ·)
    | _ => none
  let (whole, fraction) ←
    match Text.splitOn '.' mantissa with
    | [whole] => some (whole, [])
    | [whole, fraction] => some (whole, fraction)
    | _ => none
  let fraction := (fraction.reverse.dropWhile (· == '0')).reverse
  if fraction.length > exponent then none
  else do
    let digits ← Text.readDigits Text.asciiDigitValue? 10 (whole ++ fraction)
    some (nearestDouble (digits * Nat.pow 10 (exponent - fraction.length)))

/-- The integer that the number equals, if it equals one. -/
def integer? (x : Floating) : Option Int :=
  match x.text.toList with
  | '-' :: cs => (magnitude? cs).map fun n ↦ -n
  | cs => (magnitude? cs).map fun n ↦ n

/-- The whole part of a number that is no integer, from its text without a sign. Such a number has
an exponent only if it is less than one. -/
def wholePart? (cs : List Char) : Option Nat :=
  match Text.splitOn 'e' cs with
  | [mantissa] => Text.readDigits Text.asciiDigitValue? 10 (mantissa.takeWhile (· != '.'))
  | _ => some 0

/-- The number is less than the natural number. No natural number is more than infinity, and one
that is not a number is less than none. -/
def isBelow (x : Floating) (n : Nat) : Bool :=
  match x.integer?, x.text.toList with
  | some k, _ => k < (n : Int)
  | none, '-' :: _ => true
  | none, cs =>
    match wholePart? cs with
    | some whole => whole < n
    | none => false

/-- The numbers are equal as numbers: the two zeros are, and a number that is not a number is equal
to none. -/
def same (x y : Floating) : Bool :=
  !x.isNaN && (x.text = y.text || (x.integer? = some 0 && y.integer? = some 0))

end Floating

end StagedColumns
