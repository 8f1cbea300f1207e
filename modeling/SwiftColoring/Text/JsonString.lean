import SwiftColoring.Text.Hex

/-!
# JSON strings

A text as a JSON string: quotes, backslashes and controls below U+0020 are escaped, everything else
stands for itself.
-/

namespace SwiftColoring.JsonString

/-- What stands between the quotes for one character. -/
def escape (c : Char) : List Char :=
  if c = '"' then ['\\', '"']
  else if c = '\\' then ['\\', '\\']
  else if c = '\x08' then ['\\', 'b']
  else if c = '\t' then ['\\', 't']
  else if c = '\n' then ['\\', 'n']
  else if c = '\x0c' then ['\\', 'f']
  else if c = '\r' then ['\\', 'r']
  else if c.toNat < 0x20 then ['\\', 'u'] ++ Hex.padded 4 c.toNat
  else [c]

/-- The text as a JSON string, quotes included. -/
def encode (text : List Char) : List Char := '"' :: text.flatMap escape ++ ['"']

/-- The JSON string as a string. -/
def render (text : List Char) : String := String.ofList (encode text)

end SwiftColoring.JsonString
