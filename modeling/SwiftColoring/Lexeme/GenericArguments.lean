import SwiftColoring.Lexeme.Character

/-!
# Generic arguments

Whether a less-than sign opens generic arguments cannot be told from the sign alone. It does if it
stands directly behind a word and a balanced list of brackets follows that holds only what occurs in
types, up to a bracket after which an expression cannot go on. The search then marks every bracket
inside, so that each is read as a bracket when its turn comes.
-/

namespace SwiftColoring

/-- The places, counted in characters, of signs known to be angle brackets. -/
structure AngleMarks where
  openers : List Nat
  closers : List Nat
  deriving DecidableEq, Repr

namespace AngleMarks

/-- No known bracket. -/
def empty : AngleMarks := ⟨[], []⟩

/-- The marks of both. -/
def append (a b : AngleMarks) : AngleMarks := ⟨a.openers ++ b.openers, a.closers ++ b.closers⟩

/-- The marks and an opening bracket before them. -/
def withOpener (index : Nat) (m : AngleMarks) : AngleMarks := { m with openers := index :: m.openers }

/-- The marks and a closing bracket before them. -/
def withCloser (index : Nat) (m : AngleMarks) : AngleMarks := { m with closers := index :: m.closers }

end AngleMarks

namespace GenericArguments

/-- The characters, apart from those of words, brackets and arrows, that occur in types. -/
def typeChars : List Char := [' ', '\t', ',', '.', '?', '!', '[', ']', '(', ')', ':']

/-- The characters that may follow the last bracket. -/
def followers : List Char :=
  [' ', '\t', '\n', '\r', '(', ')', '[', ']', '{', '}', ',', ';', '.', ':', '!', '?', '>', '=']

/-- What follows the last bracket, if anything does, leaves it a bracket. -/
def isFollowedWell (text : List Char) : Bool := text.head?.all followers.contains

/-- The brackets that the text closes and opens up to the last of `nested + 1` open ones. The text
starts at `index`, behind the character `previous`; the sign of an arrow closes nothing. -/
def marks? (nested : Nat) (previous : Char) (index : Nat) : List Char → Option AngleMarks
  | [] => none
  | c :: rest =>
    if c == '<' then (marks? (nested + 1) c (index + 1) rest).map (·.withOpener index)
    else if c == '>' && previous != '-' then
      match nested with
      | 0 => if isFollowedWell rest then some ⟨[], [index]⟩ else none
      | nested + 1 => (marks? nested c (index + 1) rest).map (·.withCloser index)
    else if c == '>' || (c == '-' && rest.head? == some '>') || typeChars.contains c || isWordChar c then
      marks? nested c (index + 1) rest
    else none

/-- The brackets of the generic arguments that a less-than sign at `index` opens, with `previous`
before the sign and the text behind it; none if it opens none. The sign itself is not among them. -/
def ofText? (previous : Option Char) (index : Nat) (text : List Char) : Option AngleMarks :=
  if previous.any isWordChar then marks? 0 '<' (index + 1) text else none

end GenericArguments

end SwiftColoring
