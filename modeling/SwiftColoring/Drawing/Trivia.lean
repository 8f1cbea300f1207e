import SwiftColoring.Drawing.Basic
import SwiftColoring.Token.Trivia

/-!
# Drawing trivia

Blanks, line breaks and comments are drawn, backticks and garbage are not. Every piece moves the place
where the next one starts, drawn or not.
-/

namespace SwiftColoring

/-- The category of a piece of trivia, none for those that are not drawn. -/
def Category.ofPiece? : Piece → Option Category
  | .run unit _ =>
    if unit.isBreak then some .newline else if unit = .backtick then none else some .unknown
  | .lineComment .. => some .lineComment
  | .blockComment .. => some .blockComment
  | .garbage _ => none

/-- A piece of trivia drawn in its place. -/
def Piece.draw? (p : Piece) (range : ByteRange) : Option Drawn :=
  (Category.ofPiece? p).map fun category => ⟨p.text, category, range⟩

/-- Trivia drawn from a place on. -/
def Trivia.draw (start : Nat) : Trivia → List Drawn
  | [] => []
  | p :: t => (p.draw? ⟨start, start + p.byteSize⟩).toList ++ Trivia.draw (start + p.byteSize) t

end SwiftColoring
