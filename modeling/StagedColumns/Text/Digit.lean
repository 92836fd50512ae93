import StagedColumns.Text.CodeRange

/-!
# Digits

Decimal digits of every script: each script has ten consecutive code points that stand for zero to
nine, so the table holds the zeros. Hexadecimal digits are the ASCII ones only.
-/

set_option autoImplicit false

namespace StagedColumns.Text

/-- The code points of the zeros. The nine code points after each of them are the other digits. -/
def zeroDigits : List Nat :=
  [48, 1632, 1776, 1984, 2406, 2534, 2662, 2790, 2918, 3046, 3174, 3302, 3430, 3558, 3664, 3792,
   3872, 4160, 4240, 6112, 6160, 6470, 6608, 6784, 6800, 6992, 7088, 7232, 7248, 42528, 43216,
   43264, 43472, 43504, 43600, 44016, 65296, 66720, 68912, 69734, 69872, 69942, 70096, 70384,
   70736, 70864, 71248, 71360, 71472, 71904, 72016, 72784, 73040, 73120, 92768, 92864, 93008,
   120782, 120792, 120802, 120812, 120822, 123200, 123632, 125264, 130032]

/-- The value of a decimal digit of any script. -/
def digitValue? (c : Char) : Option Nat :=
  (zeroDigits.find? fun start ↦ start ≤ c.toNat && c.toNat < start + 10).map (c.toNat - ·)

/-- The value of an ASCII decimal digit. -/
def asciiDigitValue? (c : Char) : Option Nat :=
  if '0'.toNat ≤ c.toNat ∧ c.toNat ≤ '9'.toNat then some (c.toNat - '0'.toNat) else none

/-- The value of an ASCII hexadecimal digit of either case. -/
def hexValue? (c : Char) : Option Nat :=
  if '0'.toNat ≤ c.toNat ∧ c.toNat ≤ '9'.toNat then some (c.toNat - '0'.toNat)
  else if 'a'.toNat ≤ c.toNat ∧ c.toNat ≤ 'f'.toNat then some (c.toNat - 'a'.toNat + 10)
  else if 'A'.toNat ≤ c.toNat ∧ c.toNat ≤ 'F'.toNat then some (c.toNat - 'A'.toNat + 10)
  else none

/-- The number that digits denote in a base, `none` if a character is no digit. No digits denote
zero. -/
def readDigits (value? : Char → Option Nat) (base : Nat) (cs : List Char) : Option Nat :=
  cs.foldl (fun total c ↦ do return (← total) * base + (← value? c)) (some 0)

/-- The hexadecimal digits of a number, in lower case and without leading zeros. -/
def lowerHex (n : Nat) : List Char :=
  Nat.toDigits 16 n

/-- The hexadecimal digits of a number, in upper case and without leading zeros. -/
def upperHex (n : Nat) : List Char :=
  (Nat.toDigits 16 n).map Char.toUpper

/-- The lower-case hexadecimal digits of a number, with zeros in front up to the width. -/
def paddedHex (width n : Nat) : List Char :=
  let digits := lowerHex n
  List.replicate (width - digits.length) '0' ++ digits

end StagedColumns.Text
