import SwiftColoring.Drawing.Basic
import SwiftColoring.Text.Styled

/-!
# Listings

Drawn stretches for readers at a terminal: one on a line, with its range and its category in columns
and its text in quotes. Categories are coloured, apart from those that most of a source belongs to.
-/

namespace SwiftColoring

/-- The colour of a category in a listing. -/
def Category.hue? : Category → Option Hue
  | .className => some .cyan
  | .functionName => some .blue
  | .importName => some .brightYellow
  | .integer | .float => some .yellow
  | .keyword | .selfOrSuper | .anyKeyword => some .magenta
  | .string | .stringInterpolationAnchor => some .red
  | .atSign => some .brightMagenta
  | .lineComment | .blockComment => some .green
  | .identifier | .operatorOrPunctuation | .newline | .unknown => none

namespace Listing

/-- The text with blanks behind it up to a width. -/
def padRight (width : Nat) (text : String) : String :=
  text ++ String.ofList (List.replicate (width - text.length) ' ')

/-- The text with blanks before it up to a width. -/
def padLeft (width : Nat) (text : String) : String :=
  String.ofList (List.replicate (width - text.length) ' ') ++ text

/-- The column of a category. The blanks behind the name are coloured with it. -/
def categoryColumn (paint : Painter) (category : Category) : String :=
  let column := padRight 26 category.name
  match category.hue? with
  | some hue => paint (.inHue hue) column
  | none => column

/-- The line of a stretch. -/
def line (paint : Painter) (d : Drawn) : String :=
  padLeft 6 (toString d.range.start) ++ ".." ++ padRight 6 (toString d.range.stop) ++ " " ++
    categoryColumn paint d.category ++ " " ++ Quoted.render d.text

/-- The listing of stretches in a row. -/
def render (paint : Painter) (ds : List Drawn) : String :=
  String.intercalate "\n" (ds.map (line paint))

end Listing

end SwiftColoring
