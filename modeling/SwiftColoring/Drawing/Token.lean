import SwiftColoring.Drawing.Trivia
import SwiftColoring.Token.Basic

/-!
# Drawing tokens

A token is drawn after the trivia before it and before the trivia behind it. What an identifier names
is read off the kind of the token directly before it, whether that token is drawn or not and whatever
trivia lies between.
-/

namespace SwiftColoring

/-- The text starts with a capital letter. -/
def startsWithCapital (text : List Char) : Bool := text.head?.any Unicode.isUppercase

/-- A text of a kind drawn in its place, before it is known what precedes it. -/
def Kind.draw? (kind : Kind) (text : List Char) (range : ByteRange) : Option Drawn :=
  (Category.ofKind? kind).map fun category => ⟨text, category, range⟩

/-- The category that a stretch turns out to have behind a token of this kind, if it turns out to have
another. -/
def Drawn.refinement? (d : Drawn) (previous : Option Kind) (capital : Bool) : Option Category :=
  if d.category = .identifier then previous.bind (Category.named? · capital) else none

/-- The stretch behind a token of this kind. -/
def Drawn.refine (d : Drawn) (previous : Option Kind) (capital : Bool) : Drawn :=
  { d with category := (d.refinement? previous capital).getD d.category }

namespace Token

/-- The bytes of the text. -/
def range (t : Token) : ByteRange := ⟨t.span.start.offset, t.span.stop.offset⟩

/-- The text of the token drawn by its kind; a token without text is not drawn. -/
def candidate? (t : Token) : Option Drawn :=
  if t.range.isEmpty then none else t.kind.draw? t.text t.range

/-- The text of the token drawn behind a token of the kind `previous`. -/
def drawText? (previous : Option Kind) (t : Token) : Option Drawn :=
  t.candidate?.map fun d => d.refine previous (startsWithCapital t.text)

/-- The token drawn with its trivia. -/
def draw (previous : Option Kind) (t : Token) : List Drawn :=
  t.leading.draw t.fullStart ++ (t.drawText? previous).toList ++ t.trailing.draw t.range.stop

end Token

/-- Tokens in a row drawn behind a token of the kind `previous`. -/
def drawTokensFrom (previous : Option Kind) : List Token → List Drawn
  | [] => []
  | t :: ts => t.draw previous ++ drawTokensFrom (some t.kind) ts

/-- The tokens of a source drawn. -/
def drawTokens (ts : List Token) : List Drawn := drawTokensFrom none ts

/-! ## What was read off the token before -/

/-- An identifier that turned out to name something. -/
structure Refinement where
  text : List Char
  category : Category
  previous : Kind
  deriving DecidableEq, Repr

/-- The identifier that the token is, if it turns out to name something behind `previous`. -/
def Token.refinement? (previous : Option Kind) (t : Token) : Option Refinement := do
  let d ← t.candidate?
  let category ← d.refinement? previous (startsWithCapital t.text)
  return ⟨t.text, category, ← previous⟩

/-- The identifiers among tokens in a row that turn out to name something. -/
def refinementsFrom (previous : Option Kind) : List Token → List Refinement
  | [] => []
  | t :: ts => (t.refinement? previous).toList ++ refinementsFrom (some t.kind) ts

/-- The identifiers of a source that turn out to name something. -/
def refinements (ts : List Token) : List Refinement := refinementsFrom none ts

end SwiftColoring
