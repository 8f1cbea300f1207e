import SwiftColoring.Lexeme.Character

/-!
# Numbers

An integer literal is a run of digits of its base, announced by a marker unless the base is ten;
underscores may stand among the digits. A fraction or an exponent makes it a floating literal, in base
ten or sixteen. A dot belongs to the number only if a digit of the base follows it, so that a member
may be taken of an integer.

In base ten the exponent needs a digit; in base sixteen its letter is enough.
-/

namespace SwiftColoring.Number

/-- The length of the digits and underscores that the text starts with. -/
def digitsLength (base : Base) (text : List Char) : Nat :=
  (text.takeWhile fun c => c == '_' || base.hasDigit c).length

/-- The length of the fraction that the text starts with, zero if there is none. -/
def fractionLength (base : Base) : List Char → Nat
  | '.' :: d :: rest => if base.hasDigit d then 1 + digitsLength base (d :: rest) else 0
  | _ => 0

/-- The length of what follows the letter of an exponent: a sign, if any, and decimal digits. -/
def powerLength : List Char → Nat
  | [] => 0
  | c :: rest =>
    if c == '+' || c == '-' then 1 + digitsLength .decimal rest else digitsLength .decimal (c :: rest)

/-- A decimal power starts with a digit, or with a sign and a digit. -/
def startsPower : List Char → Bool
  | [] => false
  | c :: rest => c.isDigit || ((c == '+' || c == '-') && rest.head?.any Char.isDigit)

/-- The length of the exponent that the text starts with, zero if there is none. -/
def exponentLength (base : Base) : List Char → Nat
  | [] => 0
  | c :: rest =>
    match base with
    | .decimal => if (c == 'e' || c == 'E') && startsPower rest then 1 + powerLength rest else 0
    | .hex => if c == 'p' || c == 'P' then 1 + powerLength rest else 0
    | _ => 0

/-- The kind and the length of a number whose marker takes `marker` characters, with `text` behind
the marker. -/
def measure (base : Base) (marker : Nat) (text : List Char) : Kind × Nat :=
  let digits := digitsLength base text
  let fraction := fractionLength base (text.drop digits)
  let exponent := exponentLength base (text.drop (digits + fraction))
  (if fraction == 0 && exponent == 0 then .integer base else .float,
    marker + digits + fraction + exponent)

/-- The kind and the length of the number that the text starts with. -/
def ofText : List Char → Kind × Nat
  | '0' :: 'x' :: text => measure .hex 2 text
  | '0' :: 'o' :: text => (.integer .octal, 2 + digitsLength .octal text)
  | '0' :: 'b' :: text => (.integer .binary, 2 + digitsLength .binary text)
  | text => measure .decimal 0 text

theorem ofText_length_pos {c : Char} (h : c.isDigit = true) (text : List Char) :
    0 < (ofText (c :: text)).2 := by
  unfold ofText
  split
  · simp only [measure]
    omega
  · simp only
    omega
  · simp only
    omega
  · simp only [measure, digitsLength, Base.hasDigit, List.takeWhile_cons, h, Bool.or_true, if_true,
      List.length_cons]
    omega

end SwiftColoring.Number
