import StagedColumns.Text.CodeRange

/-!
# Blank characters and trimming

A blank is a character with the bidirectional class of white space, a paragraph or segment
separator, or the general category of a space: besides the space and the five controls from tab to
carriage return these are the four information separators, the next-line control, and the fixed
width spaces. The zero-width space and the byte order mark are not blank. Trimming removes blanks
from both ends.
-/

set_option autoImplicit false

namespace StagedColumns.Text

/-- The blank code points. -/
def blankRanges : List (Nat × Nat) :=
  [(9, 13), (28, 32), (133, 133), (160, 160), (5760, 5760), (8192, 8202), (8232, 8233),
   (8239, 8239), (8287, 8287), (12288, 12288)]

/-- The character is blank. -/
def isBlank (c : Char) : Bool :=
  inRanges blankRanges c.toNat

/-- The characters without the blanks at the front. -/
def trimFront (cs : List Char) : List Char :=
  cs.dropWhile isBlank

/-- The characters without the blanks at either end. -/
def trimBlanks (cs : List Char) : List Char :=
  (trimFront (trimFront cs).reverse).reverse

/-- The text without the blanks at either end. -/
def trim (s : String) : String :=
  String.ofList (trimBlanks s.toList)

end StagedColumns.Text
