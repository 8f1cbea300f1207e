import SwiftColoring.Lexer.Context
import SwiftColoring.Lexer.Cursor
import SwiftColoring.Lexeme.GenericArguments

/-!
# The state of a lexer

A lexer is a cursor in the source, the contexts it is in, the angle brackets it has found ahead of
itself, and whether it has handed out the token that ends the source.
-/

namespace SwiftColoring

/-- A lexer between two tokens. -/
structure Lexer extends Cursor where
  /-- The contexts, innermost first. -/
  contexts : List Context
  /-- The angle brackets known so far. -/
  angles : AngleMarks
  /-- The end of the source has been handed out. -/
  finished : Bool
  deriving DecidableEq, Repr

namespace Lexer

/-- The lexer before a source. -/
def ofText (text : List Char) : Lexer :=
  { Cursor.ofText text with contexts := [.code], angles := .empty, finished := false }

/-- The innermost context. -/
def context (l : Lexer) : Context := Context.innermost l.contexts

/-- The lexer moved over a number of characters. -/
def advance (l : Lexer) (n : Nat) : Lexer := { l with toCursor := l.toCursor.advance n }

@[simp] theorem advance_toCursor (l : Lexer) (n : Nat) :
    (l.advance n).toCursor = l.toCursor.advance n := rfl

@[simp] theorem advance_contexts (l : Lexer) (n : Nat) : (l.advance n).contexts = l.contexts := rfl

@[simp] theorem advance_angles (l : Lexer) (n : Nat) : (l.advance n).angles = l.angles := rfl

@[simp] theorem advance_finished (l : Lexer) (n : Nat) : (l.advance n).finished = l.finished := rfl

@[simp] theorem advance_context (l : Lexer) (n : Nat) : (l.advance n).context = l.context := rfl

end Lexer

end SwiftColoring
