import SwiftColoring.Lexeme.Character

/-!
# Comments

A line comment runs to the end of its line. A block comment runs to the marker that closes it, and
block comments inside it are closed first. A third marker character makes either a documentation
comment, unless a slash follows it.
-/

namespace SwiftColoring.Comment

/-- The comment that the text starts with is documentation; `mark` is the character that documentation
comments of its sort have in third place. -/
def isDoc (mark : Char) : List Char → Bool
  | _ :: _ :: third :: rest => third == mark && rest.head? != some '/'
  | _ => false

/-- The number of characters up to and including the marker that closes a block comment, read from
behind its opening marker, with `nested` comments open inside it; none if no marker closes it. -/
def closing? (nested : Nat) : List Char → Option Nat
  | [] => none
  | '/' :: '*' :: rest => (closing? (nested + 1) rest).map (· + 2)
  | '*' :: '/' :: rest =>
    match nested with
    | 0 => some 2
    | nested + 1 => (closing? nested rest).map (· + 2)
  | _ :: rest => (closing? nested rest).map (· + 1)

/-- The length of the block comment that the text starts with, if it ends. -/
def blockLength? (text : List Char) : Option Nat :=
  (closing? 0 (text.drop 2)).map (· + 2)

end SwiftColoring.Comment
