import StagedColumns.Text.Blank
import StagedColumns.Text.Digit
import StagedColumns.Text.Split

/-!
# Addresses as user names

The name of a user who is not registered is mostly an IP address, and one address can be written in
many ways. A dotted quad has four decimal numbers of at most three digits, of any script and with
leading zeros. An address of eight groups has hexadecimal groups between colons; two adjacent colons
stand for the groups left out, at least one, and a strict dotted quad may stand for the last two
groups. Every address has one canonical text, and a name that is no address is its own.
-/

set_option autoImplicit false

namespace StagedColumns

/-- An IP address. -/
inductive Address
  /-- Four numbers up to 255. -/
  | quad (parts : List Nat)
  /-- Eight groups of sixteen bits. -/
  | groups (parts : List Nat)
deriving DecidableEq

namespace Address

/-- The value of each part, if each has one. -/
def readAll (value? : List Char → Option Nat) : List (List Char) → Option (List Nat)
  | [] => some []
  | part :: rest => do return (← value? part) :: (← readAll value? rest)

/-- The four numbers of a dotted quad whose parts `value?` reads. -/
def quadOf? (value? : List Char → Option Nat) (cs : List Char) : Option (List Nat) :=
  let parts := Text.splitOn '.' cs
  if parts.length = 4 then readAll value? parts else none

/-- A number up to 255 in one to three decimal digits of any script. -/
def looseOctet? (cs : List Char) : Option Nat :=
  if cs = [] ∨ 3 < cs.length then none
  else (Text.readDigits Text.digitValue? 10 cs).filter fun n ↦ n ≤ 255

/-- A number up to 255 in one to three ASCII digits without leading zeros. -/
def strictOctet? (cs : List Char) : Option Nat :=
  if cs = [] ∨ 3 < cs.length ∨ (cs.head? = some '0' ∧ cs ≠ ['0']) then none
  else (Text.readDigits Text.asciiDigitValue? 10 cs).filter fun n ↦ n ≤ 255

/-- A group of one to four hexadecimal digits. -/
def group? (cs : List Char) : Option Nat :=
  if cs = [] ∨ 4 < cs.length then none else Text.readDigits Text.hexValue? 16 cs

/-- The two groups that a dotted quad stands for. -/
def pairOfQuad : List Nat → Option (List Nat)
  | [a, b, c, d] => some [a * 256 + b, c * 256 + d]
  | _ => none

/-- The groups of the parts between colons, the last of which may be a dotted quad. -/
def groupsThenQuad? : List (List Char) → Option (List Nat)
  | [] => some []
  | [last] =>
    if last.contains '.' then (quadOf? strictOctet? last).bind pairOfQuad
    else (group? last).map fun n ↦ [n]
  | part :: rest => do return (← group? part) :: (← groupsThenQuad? rest)

/-- The parts between colons; an empty text has none. -/
def colonParts (cs : List Char) : List (List Char) :=
  if cs = [] then [] else Text.splitOn ':' cs

/-- The eight groups that a text denotes. -/
def groups? (cs : List Char) : Option (List Nat) :=
  match Text.cutAt? [':', ':'] cs with
  | none => (groupsThenQuad? (colonParts cs)).filter fun groups ↦ groups.length = 8
  | some (front, back) => do
    let high ← readAll group? (colonParts front)
    let low ← groupsThenQuad? (colonParts back)
    if high.length + low.length < 8 then
      some (high ++ List.replicate (8 - (high.length + low.length)) 0 ++ low)
    else none

/-- The address that a text without blanks around it denotes. -/
def ofText? (cs : List Char) : Option Address :=
  match quadOf? looseOctet? cs with
  | some parts => some (quad parts)
  | none => (groups? cs).map groups

/-- The canonical text of an address: decimal numbers between dots, or upper-case hexadecimal groups
between colons, all without leading zeros. -/
def text : Address → String
  | quad parts => ".".intercalate (parts.map toString)
  | groups parts => ":".intercalate (parts.map fun n ↦ String.ofList (Text.upperHex n))

end Address

/-- The canonical form of a user's name: the blanks around it do not count, and an address is
written in its canonical text. -/
def canonicalName (name : String) : String :=
  let bare := Text.trimBlanks name.toList
  match Address.ofText? bare with
  | some address => address.text
  | none => String.ofList bare

end StagedColumns
