import StagedColumns.Stage
import StagedColumns.Text.Blank
import StagedColumns.Text.Lowercase
import StagedColumns.Text.Quoted
import StagedColumns.Text.Split

/-!
# Reading stages

A deployment gives a stage as a number, as a pair of modes, or as a text such as
`write-both/read-old`. Every reader accepts exactly the valid combinations and otherwise says which
rule was broken. In a text the components may stand in any order and are cut at slashes, plus signs
and commas; blanks around them, empty components and letter case do not matter, and a later
component replaces an earlier one of its kind. The words `old` and `new` alone stand for writing and
reading only that representation.
-/

set_option autoImplicit false

namespace StagedColumns

/-- Why a stage was refused. Most refusals carry the stage as it was given. -/
inductive StageFault
  /-- A mode to write that does not exist. -/
  | unknownWriting (shown given : String)
  /-- A mode to read that does not exist. -/
  | unknownReading (shown given : String)
  /-- A representation is read that is not written. -/
  | unwritten (writing : Writing) (reading : Schema)
  /-- A number was expected. -/
  | notInteger (type : String) (given : Option String)
  | noWriting (given : String)
  | noReading (given : String)
  | readsBoth (given : String)
  /-- A component that names neither a mode to write nor one to read. -/
  | unrecognised (component given : String)
deriving DecidableEq

namespace StageFault

/-- What the refusal says. -/
def message : StageFault → String
  | unknownWriting shown _ => "Unknown stage component: " ++ shown ++ " is not a valid WriteMode"
  | unknownReading shown _ => "Unknown stage component: " ++ shown ++ " is not a valid ReadMode"
  | unwritten _ reading => "Cannot read the " ++ reading.name ++ " schema without also writing it"
  | notInteger type _ => "Stage flags must be an integer, got " ++ type
  | noWriting _ => "Stage must include a write mode"
  | noReading _ => "Stage must include a read mode"
  | readsBoth _ => "Cannot read both schemas"
  | unrecognised component _ => "Unrecognised stage component " ++ Text.quoted component

/-- The stage as it was given; for an invalid combination of modes, its label. -/
def given? : StageFault → Option String
  | unknownWriting _ given | unknownReading _ given => some given
  | unwritten writing reading => some (Stage.labelOf writing reading)
  | notInteger _ given => given
  | noWriting given | noReading given | readsBoth given | unrecognised _ given => some given

end StageFault

/-- A mode as it was given: its name if it is a text, the way a message quotes it, and the way it is
joined to the other mode. -/
structure GivenMode where
  name? : Option String
  shown : String
  plain : String

/-- A mode given as a text. -/
def GivenMode.ofText (s : String) : GivenMode :=
  ⟨some s, Text.quoted s, s⟩

namespace Stage

/-- The stage of two modes, if what is read is written. -/
def ofModes (writing : Writing) (reading : Schema) : Except StageFault Stage :=
  if h : writing.fills reading = true then .ok ⟨writing, reading, h⟩
  else .error (.unwritten writing reading)

/-- The stage of two modes as they were given. The mode to write is looked at first. -/
def ofGiven (write read : GivenMode) : Except StageFault Stage :=
  let given := write.plain ++ "/" ++ read.plain
  match write.name?.bind Writing.ofName? with
  | none => .error (.unknownWriting write.shown given)
  | some writing =>
    match read.name?.bind Schema.ofName? with
    | none => .error (.unknownReading read.shown given)
    | some reading => ofModes writing reading

/-- The stage of two names of modes. -/
def ofNames (write read : String) : Except StageFault Stage :=
  ofGiven (.ofText write) (.ofText read)

/-- A number with its sign, in hexadecimal. -/
def shownFlags (n : Int) : String :=
  String.ofList ((if n < 0 then ['-', '0', 'x'] else ['0', 'x']) ++ Text.lowerHex n.natAbs)

/-- The stage of a number. Bits that are not stage bits do not matter. -/
def ofFlags (n : Int) : Except StageFault Stage :=
  let bits := StageBits.ofInt n
  match bits.writing? with
  | none => .error (.noWriting (shownFlags n))
  | some writing =>
    match bits.readOld, bits.readNew with
    | false, false => .error (.noReading (shownFlags n))
    | true, true => .error (.readsBoth (shownFlags n))
    | true, false => ofModes writing .old
    | false, true => ofModes writing .new

/-- The character stands between the components of a stage text. -/
def separates (c : Char) : Bool :=
  c == '/' || c == '+' || c == ','

/-- The names of the modes that the components of a stage text give. -/
structure NamedModes where
  write? : Option String
  read? : Option String

/-- The modes that the components name, the last of a kind counting, or the first component that
names none. -/
def readComponents (given : String) (named : NamedModes) :
    List (List Char) → Except StageFault NamedModes
  | [] => .ok named
  | component :: rest =>
    match Text.after? "write-" component with
    | some mode => readComponents given ⟨some (String.ofList mode), named.read?⟩ rest
    | none =>
      match Text.after? "read-" component with
      | some mode => readComponents given ⟨named.write?, some (String.ofList mode)⟩ rest
      | none =>
        if component = [] then readComponents given named rest
        else .error (.unrecognised (String.ofList component) given)

/-- The components of a stage text, without the blanks around them. -/
def components (s : String) : List (List Char) :=
  (Text.splitWhere separates s.toList).map Text.trimBlanks

/-- The stage that a text gives. -/
def ofText (given : String) : Except StageFault Stage :=
  let value := Text.lowercase (Text.trim given)
  match Schema.ofName? value with
  | some schema => .ok (only schema)
  | none =>
    match readComponents given ⟨none, none⟩ (components value) with
    | .error fault => .error fault
    | .ok ⟨none, _⟩ => .error (.noWriting given)
    | .ok ⟨some _, none⟩ => .error (.noReading given)
    | .ok ⟨some write, some read⟩ =>
      if read = "both" then .error (.readsBoth given) else ofNames write read

end Stage

end StagedColumns
