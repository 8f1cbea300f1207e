import SwiftColoring.Token.Kind
import SwiftColoring.Token.Trivia

/-!
# Tokens

A token is a stretch of source text of one kind, together with the trivia before and behind it. The
tokens of a source cover it without gaps, so that the source can be read back from them.
-/

namespace SwiftColoring

/-- A token and the trivia on either side. The span covers the text alone. -/
structure Token where
  kind : Kind
  text : List Char
  span : Span
  leading : Trivia
  trailing : Trivia
  deriving DecidableEq, Repr

namespace Token

/-- The offset where the leading trivia starts. -/
def fullStart (t : Token) : Nat := t.span.start.offset - t.leading.byteSize

/-- The offset where the trailing trivia ends. -/
def fullStop (t : Token) : Nat := t.span.stop.offset + t.trailing.byteSize

/-- The text with its trivia. -/
def fullText (t : Token) : List Char := t.leading.text ++ t.text ++ t.trailing.text

end Token

end SwiftColoring
