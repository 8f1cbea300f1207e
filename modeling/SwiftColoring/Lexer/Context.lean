import SwiftColoring.Text.Position

/-!
# Contexts

What the next character means depends on what is being read: code, the text of a string literal, or
the code of an interpolation inside one. Contexts nest, so they form a stack, innermost first, with
plain code at the bottom. Each context of a literal remembers where the literal was opened, for the
message if it never ends.
-/

namespace SwiftColoring

/-- What is being read. -/
inductive Context where
  | code
  /-- The text of a literal. -/
  | string (multiline : Bool) (opening : Pos)
  /-- The place between the backslash and the parenthesis of an interpolation. -/
  | interpolationStart (opening : Pos)
  /-- The code of an interpolation in which `depth` parentheses are open. -/
  | interpolation (depth : Nat) (opening : Pos)
  deriving DecidableEq, Repr

namespace Context

/-- Tokens of code, with trivia between them, are read here. -/
def isCode : Context → Bool
  | .code | .interpolation .. => true
  | .string .. | .interpolationStart .. => false

/-- The innermost of a stack of contexts. -/
def innermost (contexts : List Context) : Context := contexts.headD .code

/-- The contexts behind an opening parenthesis. -/
def enterParen : List Context → List Context
  | .interpolation depth opening :: outer => .interpolation (depth + 1) opening :: outer
  | contexts => contexts

/-- The contexts behind a closing parenthesis that ends no interpolation. -/
def leaveParen : List Context → List Context
  | .interpolation (depth + 1) opening :: outer => .interpolation depth opening :: outer
  | contexts => contexts

/-- A closing parenthesis here ends an interpolation. -/
def endsInterpolation : Context → Bool
  | .interpolation 0 _ => true
  | _ => false

end Context

end SwiftColoring
