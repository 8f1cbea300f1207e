import SwiftColoring.Unicode.Alphabetic
import SwiftColoring.Unicode.Numeric
import SwiftColoring.Unicode.Uppercase
import SwiftColoring.Unicode.Extending
import SwiftColoring.Unicode.Unprintable

/-!
# Properties of characters

The Unicode properties that the rest of the library asks about. Below U+0080 each is decided by a
comparison, from there on by its table of ranges, so that statements about ASCII text never open a
table.

* `isAlphabetic_eq_isAlpha` — on ASCII, alphabetic means a letter.
* `isAlphanumeric_eq` — on ASCII, alphanumeric means a letter or a digit.
-/

namespace SwiftColoring.Unicode

/-- The character lies in the first 128 code points. -/
def isAscii (c : Char) : Bool := c.toNat < 0x80

/-- The character has the property Alphabetic. -/
def isAlphabetic (c : Char) : Bool :=
  if isAscii c then c.isAlpha else alphabeticRanges.covers c.toNat

/-- The general category of the character is a number. -/
def isNumeric (c : Char) : Bool :=
  if isAscii c then c.isDigit else numericRanges.covers c.toNat

/-- The character is alphabetic or a number. -/
def isAlphanumeric (c : Char) : Bool := isAlphabetic c || isNumeric c

/-- The character has the property Uppercase. -/
def isUppercase (c : Char) : Bool :=
  if isAscii c then c.isUpper else uppercaseRanges.covers c.toNat

/-- The character attaches to the one before it. -/
def isExtending (c : Char) : Bool := extendingRanges.covers c.toNat

/-- The character has a visible form of its own; of the blanks only the space has. -/
def isPrintable (c : Char) : Bool :=
  if isAscii c then 0x20 ≤ c.toNat && c.toNat < 0x7F else !unprintableRanges.covers c.toNat

/-! ## On ASCII -/

theorem isAlphabetic_eq_isAlpha {c : Char} (h : isAscii c = true) : isAlphabetic c = c.isAlpha := by
  simp [isAlphabetic, h]

theorem isAlphanumeric_eq {c : Char} (h : isAscii c = true) :
    isAlphanumeric c = (c.isAlpha || c.isDigit) := by
  simp [isAlphanumeric, isNumeric, isAlphabetic, h]

theorem isAlphanumeric_of_isAlphabetic {c : Char} (h : isAlphabetic c = true) :
    isAlphanumeric c = true := by
  simp [isAlphanumeric, h]

end SwiftColoring.Unicode
