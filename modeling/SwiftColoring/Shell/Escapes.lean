import SwiftColoring.Text.Styled

/-!
# Escape sequences

The painter for terminals. Text is coloured by escape sequences around it; where a painted text itself
contains the sequence that ends all styles, the style is started again behind it.
-/

namespace SwiftColoring

/-- The number that selects a colour. -/
def Hue.code : Hue → String
  | .red => "31"
  | .green => "32"
  | .yellow => "33"
  | .blue => "34"
  | .magenta => "35"
  | .cyan => "36"
  | .brightYellow => "93"
  | .brightMagenta => "95"

namespace Style

/-- The sequence that starts the style. -/
def opening (s : Style) : List Char :=
  let codes := (if s.bold then ["1"] else []) ++ (s.hue.map Hue.code).toList
  ['\x1b', '['] ++ (String.intercalate ";" codes).toList ++ ['m']

/-- The sequence that ends every style. -/
def reset : List Char := ['\x1b', '[', '0', 'm']

/-- The text with the style started again behind each end of all styles in it. -/
def resume (opening : List Char) : List Char → List Char
  | '\x1b' :: '[' :: '0' :: 'm' :: text => reset ++ opening ++ resume opening text
  | c :: text => c :: resume opening text
  | [] => []

end Style

/-- Sets text off by escape sequences. -/
def Painter.escapes : Painter := fun style text =>
  String.ofList (style.opening ++ Style.resume style.opening text.toList ++ Style.reset)

end SwiftColoring
