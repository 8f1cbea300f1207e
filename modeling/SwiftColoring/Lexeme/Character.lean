import SwiftColoring.Token.Kind
import SwiftColoring.Unicode.Property

/-!
# Classes of source characters

Every character of a source belongs to one class: blanks, characters that start a word, digits,
operator characters, punctuation, or garbage, which is everything else. Characters that continue a
word are those that start one and the numerals of any script.
-/

namespace SwiftColoring

/-- Blanks and line breaks. -/
def isWhitespace (c : Char) : Bool :=
  c == ' ' || c == '\t' || c == '\n' || c == '\r' || c == '\x0b' || c == '\x0c'

/-- The characters at which a line stops. -/
def isLineBreak (c : Char) : Bool := c == '\n' || c == '\r'

/-- Characters that start a word. -/
def isWordStart (c : Char) : Bool := Unicode.isAlphabetic c || c == '_'

/-- Characters that continue a word. -/
def isWordChar (c : Char) : Bool := Unicode.isAlphanumeric c || c == '_'

/-- The characters that operators are made of. -/
def operatorChars : List Char :=
  ['/', '=', '-', '+', '!', '*', '%', '<', '>', '&', '|', '^', '~', '?']

/-- Characters that operators are made of. -/
def isOperatorChar (c : Char) : Bool := operatorChars.contains c

/-- The characters that start a token without being part of a word, a number or an operator. -/
def punctuationChars : List Char :=
  ['.', '(', ')', '{', '}', '[', ']', ',', ':', ';', '@', '#', '$', '\\', '"', '`']

/-- Characters that can neither start a token nor be blank. -/
def isGarbage (c : Char) : Bool :=
  !(isWhitespace c || isWordStart c || c.isDigit || isOperatorChar c || punctuationChars.contains c)

/-- The digits of a base. -/
def Base.hasDigit : Base → Char → Bool
  | .decimal, c => c.isDigit
  | .binary, c => c == '0' || c == '1'
  | .octal, c => '0' ≤ c && c ≤ '7'
  | .hex, c => c.isDigit || ('a' ≤ c && c ≤ 'f') || ('A' ≤ c && c ≤ 'F')

theorem isWordChar_of_isWordStart {c : Char} (h : isWordStart c = true) : isWordChar c = true := by
  simp only [isWordStart, isWordChar, Bool.or_eq_true] at h ⊢
  exact h.imp Unicode.isAlphanumeric_of_isAlphabetic id

end SwiftColoring
