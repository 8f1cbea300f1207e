import SwiftColoring.Drawing.Category
import SwiftColoring.Text.JsonString
import SwiftColoring.Text.Quoted

/-!
# Drawn stretches

A source is drawn as a list of stretches, each a text with its category and its place in bytes.
-/

namespace SwiftColoring

/-- Bytes of a source, from the first to before the last. -/
structure ByteRange where
  start : Nat
  stop : Nat
  deriving DecidableEq, Repr

namespace ByteRange

/-- No byte lies in the range. -/
def isEmpty (r : ByteRange) : Bool := r.start == r.stop

/-- Both ends with two dots between them. -/
def render (r : ByteRange) : String := s!"{r.start}..{r.stop}"

end ByteRange

/-- A stretch of source as it is drawn. -/
structure Drawn where
  text : List Char
  category : Category
  range : ByteRange
  deriving DecidableEq, Repr

namespace Drawn

/-- The stretch on one line: its range, its category and its text in quotes. -/
def render (d : Drawn) : String :=
  d.range.render ++ " " ++ d.category.name ++ " " ++ Quoted.render d.text

/-- The stretch as a JSON object. -/
def json (d : Drawn) : String :=
  "\x7b\"string\":" ++ JsonString.render d.text ++
    ",\"tokenType\":" ++ toString d.category.ordinal ++
    ",\"position\":\x7b\"start\":" ++ toString d.range.start ++
    ",\"end\":" ++ toString d.range.stop ++ "\x7d\x7d"

/-- Stretches as a JSON array. -/
def jsonArray (ds : List Drawn) : String := "[" ++ String.intercalate "," (ds.map json) ++ "]"

end Drawn

end SwiftColoring
