import SwiftColoring.Lexer.Next

/-!
# The tokens of a source

Reading hands out tokens until it meets the end of the source or a failure. A token stream holds what
was handed out and the failure, if one stopped it, so that whoever reads the tokens in order meets the
failure in its place.
-/

namespace SwiftColoring

/-- Tokens in source order, up to the end of the source or a failure. -/
structure TokenStream where
  /-- The tokens before the ending. -/
  tokens : List Token
  /-- The token that ends the source, or what stopped reading before. -/
  ending : Except Failure Token

namespace TokenStream

/-- The stream with a token before it. -/
def cons (t : Token) (s : TokenStream) : TokenStream := { s with tokens := t :: s.tokens }

/-- All tokens, the last one included, unless a failure stopped reading. -/
def toExcept (s : TokenStream) : Except Failure (List Token) :=
  s.ending.map fun eof => s.tokens ++ [eof]

end TokenStream

namespace Lexer

/-- The tokens from here on, up to and including the end of the source. -/
def stream (l : Lexer) : TokenStream :=
  match _h : l.next with
  | (.error failure, _) => ⟨[], .error failure⟩
  | (.ok t, behind) =>
    if behind.finished then ⟨[], .ok t⟩ else (stream behind).cons t
termination_by l.budget
decreasing_by
  rename_i hfinished
  exact (next_budget_lt _h).resolve_left fun hlast => hfinished hlast.2

end Lexer

namespace TokenStream

/-- The token stream of a source. -/
def ofText (text : List Char) : TokenStream := (Lexer.ofText text).stream

end TokenStream

/-- The tokens of a source; the last one is its end. -/
def tokens (text : List Char) : Except Failure (List Token) := (TokenStream.ofText text).toExcept

end SwiftColoring
