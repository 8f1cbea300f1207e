/-!
# Lines of a text

A line ends at a line feed, and a carriage return right before that line feed belongs to the break.
Text behind the last line feed is a line of its own unless it is empty.
-/

namespace SwiftColoring

/-- A line without the carriage return at its end; the line is given last character first. -/
def dropReturn : List Char → List Char
  | '\r' :: line => line
  | line => line

/-- The lines of a text, of whose first line `begun` is already read, last character first. -/
def linesFrom (begun : List Char) : List Char → List (List Char)
  | [] => if begun.isEmpty then [] else [begun.reverse]
  | c :: text =>
    if c = '\n' then (dropReturn begun).reverse :: linesFrom [] text
    else linesFrom (c :: begun) text

/-- The lines of a text, without their breaks. -/
def lines (text : List Char) : List (List Char) := linesFrom [] text

end SwiftColoring
