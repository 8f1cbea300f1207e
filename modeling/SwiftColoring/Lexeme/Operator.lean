import SwiftColoring.Lexeme.Character

/-!
# Operators

An operator takes as many operator characters as there are, up to a comment or a known closing
bracket; dots are among them only if it starts with one. What stands directly before and behind it
decides between infix, prefix and postfix: blanks and separators do not bind, and neither does the end
of a block comment before it nor a comment behind it.
-/

namespace SwiftColoring.Operator

/-- The characters before an operator, nearest first, bind it on its left. -/
def isLeftBound : List Char → Bool
  | [] => false
  | c :: before =>
    if isWhitespace c || ['(', '[', '{', ',', ';', ':'].contains c then false
    else if c == '/' then before.head? != some '*'
    else true

/-- The characters behind an operator bind it on its right. -/
def isRightBound : List Char → Bool
  | [] => false
  | c :: rest =>
    if isWhitespace c || [')', ']', '}', ',', ';', ':'].contains c then false
    else if c == '/' then !rest.head?.any ['/', '*'].contains
    else true

/-- The number of characters by which the text extends an operator. The text starts at `index`; a
closing bracket marked in `closers` stays a token of its own. -/
def extension (dotted : Bool) (closers : List Nat) (index : Nat) : List Char → Nat
  | [] => 0
  | c :: rest =>
    if !(isOperatorChar c || (dotted && c == '.')) then 0
    else if c == '/' && rest.head?.any ['/', '*'].contains then 0
    else if c == '>' && closers.contains index then 0
    else 1 + extension dotted closers (index + 1) rest

/-- The kind of an operator without a kind of its own, by what binds it. -/
def boundKind (left right : Bool) : Kind :=
  match left, right with
  | true, true => .unspacedBinary
  | false, false => .spacedBinary
  | false, true => .prefixOperator
  | true, false => .postfixOperator

/-- The kind of an operator with this text, by what binds it. -/
def kind (text : List Char) (left right : Bool) : Kind :=
  match text with
  | ['='] => .equal
  | ['-', '>'] => .arrow
  | ['.'] => if !left && right then .prefixPeriod else .period
  | ['?'] => .infixQuestion
  | ['!'] => if left then .exclamation else boundKind left right
  | ['&'] => if !left && right then .prefixAmpersand else boundKind left right
  | _ => boundKind left right

end SwiftColoring.Operator
