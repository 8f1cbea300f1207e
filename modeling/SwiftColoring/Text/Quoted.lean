import SwiftColoring.Text.Hex
import SwiftColoring.Unicode.Property

/-!
# Quoted text for readers

A text in double quotes on one line: control characters, marks that would attach to their neighbour
and characters without a visible form are written as escapes, everything else stands for itself.
-/

namespace SwiftColoring.Quoted

/-- What stands between the quotes for one character. -/
def escape (c : Char) : List Char :=
  if c = '\x00' then ['\\', '0']
  else if c = '\t' then ['\\', 't']
  else if c = '\r' then ['\\', 'r']
  else if c = '\n' then ['\\', 'n']
  else if c = '"' then ['\\', '"']
  else if c = '\\' then ['\\', '\\']
  else if Unicode.isExtending c || !Unicode.isPrintable c then
    ['\\', 'u', '\x7b'] ++ Hex.digits c.toNat ++ ['\x7d']
  else [c]

/-- The text between double quotes. -/
def encode (text : List Char) : List Char := '"' :: text.flatMap escape ++ ['"']

/-- The quoted text as a string. -/
def render (text : List Char) : String := String.ofList (encode text)

end SwiftColoring.Quoted
