/-!
# Styled terminal text

Text on a terminal is set off by a style: heavier, in a colour, or both. How a style is written is left
to a painter, which is no part of this library. A painter is sound for readers if they see painted text
as the text itself.
-/

namespace SwiftColoring

/-- The foreground colours in use. -/
inductive Hue where
  | red
  | green
  | yellow
  | blue
  | magenta
  | cyan
  | brightYellow
  | brightMagenta
  deriving DecidableEq, Repr

/-- A way to set text off: heavier, in a colour, or both. -/
structure Style where
  bold : Bool := false
  hue : Option Hue := none
  deriving DecidableEq, Repr

namespace Style

/-- Heavier text. -/
def heavy : Style := { bold := true }

/-- Heavier text in a colour. -/
def heavyIn (hue : Hue) : Style := { bold := true, hue := some hue }

/-- Text in a colour. -/
def inHue (hue : Hue) : Style := { hue := some hue }

end Style

/-- Sets text off in a style. -/
abbrev Painter := Style → String → String

namespace Painter

/-- Sets nothing off, as where the output is no terminal. -/
def plain : Painter := fun _ text => text

/-- What readers see of painted text. Painters mark text by sequences that start with an escape
character; text without that character is seen as it is, painted or not. -/
structure SeenBy (paint : Painter) (seen : String → String) : Prop where
  unpainted : ∀ text rest, '\x1b' ∉ text.toList → seen (text ++ rest) = text ++ seen rest
  painted : ∀ style text rest, '\x1b' ∉ text.toList →
    seen (paint style text ++ rest) = text ++ seen rest

/-- Where nothing is set off, all is seen as it is. -/
theorem plain_seenBy : plain.SeenBy id where
  unpainted _ _ _ := rfl
  painted _ _ _ _ := rfl

end Painter

end SwiftColoring
