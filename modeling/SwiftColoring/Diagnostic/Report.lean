import SwiftColoring.Diagnostic
import SwiftColoring.Text.Lines
import SwiftColoring.Text.Styled

/-!
# Reports

A diagnostic for readers at a terminal: the message, the place in the file, and, where the source is
known, the line to blame with the stretch underlined. At least one column is underlined, and otherwise
none past the end of the line; a stretch of several lines is underlined to the end of its first.
-/

namespace SwiftColoring

/-- A line of source with an underline. -/
structure Excerpt where
  line : List Char
  /-- The columns before the underline. -/
  indent : Nat
  /-- The columns underlined. -/
  width : Nat
  deriving DecidableEq, Repr

namespace Excerpt

/-- The columns of a stretch that are underlined in a line. -/
def underline (span : Span) (line : List Char) : Nat :=
  let remaining := line.length - span.start.column
  -- a stretch that goes on below reaches to the end of its first line
  let wanted :=
    if span.lineCount == 1 then span.stop.column - span.start.column else remaining
  max 1 (min wanted remaining)

/-- The line where a stretch starts, if the source has it. -/
def ofSource? (source : List Char) (span : Span) : Option Excerpt :=
  (lines source)[span.start.line]?.map fun line =>
    ⟨line, span.start.column, underline span line⟩

end Excerpt

/-- A number of blanks. -/
def blanks (n : Nat) : String := String.ofList (List.replicate n ' ')

namespace Report

/-- The line of a report that names the place. -/
def location (paint : Painter) (path : String) (span : Span) : String :=
  blanks (toString (span.start.line + 1)).length ++ paint .heavy "-->" ++ " " ++ path ++
    ":" ++ span.render ++ "\n"

/-- The lines of a report that show the source. -/
def excerpt (paint : Painter) (lineNumber : Nat) (e : Excerpt) : String :=
  let number := toString lineNumber
  let margin := blanks (number.length + 1)
  let pipe := paint .heavy "|"
  let mark := String.ofList (List.replicate e.width '^')
  margin ++ pipe ++ "\n" ++
    paint .heavy number ++ " " ++ pipe ++ " " ++ String.ofList e.line ++ "\n" ++
    margin ++ pipe ++ " " ++ blanks e.indent ++ paint (.heavyIn .red) mark ++ "\n"

/-- What a report says about the place. -/
def place (paint : Painter) (path : Option String) (source : Option (List Char))
    (span : Option Span) : String :=
  match path, span with
  | none, _ => ""
  | some path, none => " " ++ paint .heavy "-->" ++ " " ++ path ++ "\n"
  | some path, some span =>
    location paint path span ++
      match source.bind (Excerpt.ofSource? · span) with
      | some e => excerpt paint (span.start.line + 1) e
      | none => ""

/-- A diagnostic as it is reported. -/
def render (paint : Painter) (path : Option String) (source : Option (List Char)) (d : Diagnostic) :
    String :=
  paint (.heavyIn .red) (d.fault.render ++ ":") ++ " " ++
    paint .heavy d.message ++ "\n" ++ place paint path source d.span ++ "\n"

end Report

end SwiftColoring
