import SwiftColoring.Lexeme.Character

/-!
# The text of string literals

A literal is closed by the quote that opened it: one double quote, or three for a literal of several
lines. Its text runs up to that quote or to an interpolation. A backslash takes the next character with
it, so that an escaped quote is text. A literal on one line must end before its line does.

Raw strings stand between number signs. They have no escapes and no interpolations, and they are
closed by their quote followed by as many signs as opened them.

A search that fails still tells how far it looked, because reading goes on from there.

* `extent_length_pos` — text that does not start with its own end has a length.
-/

namespace SwiftColoring

/-- How far a search for an end went. -/
structure Extent where
  /-- The number of characters passed. -/
  length : Nat
  /-- The end was found. -/
  closed : Bool
  deriving DecidableEq, Repr

/-- The extent with characters passed before it. -/
def Extent.behind (e : Extent) (n : Nat) : Extent := { e with length := e.length + n }

namespace StringText

/-- The number of characters of a quote. -/
def quoteLength (multiline : Bool) : Nat := if multiline then 3 else 1

/-- A quote mark before this text opens a literal of several lines. -/
def opensMultiline : List Char → Bool
  | '"' :: '"' :: _ => true
  | _ => false

/-- The text starts with the quote that closes the literal. -/
def startsWithQuote (multiline : Bool) (text : List Char) : Bool :=
  (List.replicate (quoteLength multiline) '"').isPrefixOf text

/-- The text starts with an interpolation. -/
def startsInterpolation : List Char → Bool
  | '\\' :: '(' :: _ => true
  | _ => false

/-- The extent of the literal's text, up to its end or an interpolation. -/
def extent (multiline : Bool) : List Char → Extent
  | [] => ⟨0, false⟩
  | ['\\'] => ⟨1, false⟩
  | '\\' :: c :: rest =>
    if c == '(' then ⟨0, true⟩
    else if !multiline && isLineBreak c then ⟨1, false⟩
    else (extent multiline rest).behind 2
  | c :: rest =>
    if startsWithQuote multiline (c :: rest) then ⟨0, true⟩
    else if !multiline && isLineBreak c then ⟨0, false⟩
    else (extent multiline rest).behind 1

theorem extent_length_pos {multiline : Bool} {text : List Char}
    (hquote : startsWithQuote multiline text = false) (hopen : startsInterpolation text = false)
    (hclosed : (extent multiline text).closed = true) : 0 < (extent multiline text).length := by
  unfold extent at hclosed ⊢
  split at hclosed
  · simp at hclosed
  · simp at hclosed
  · -- an escape: its character is no parenthesis, or an interpolation would start
    rename_i c rest
    have hc : (c == '(') = false := by
      apply beq_eq_false_iff_ne.mpr
      rintro rfl
      simp [startsInterpolation] at hopen
    simp only [hc, Bool.false_eq_true, if_false] at hclosed ⊢
    split
    · simp
    · simp [Extent.behind]
  · -- any other character, where no quote starts
    simp only [hquote, Bool.false_eq_true, if_false] at hclosed ⊢
    split at hclosed
    · simp at hclosed
    · rename_i hbreak
      simp [hbreak, Extent.behind]

end StringText

namespace RawString

/-- What closes a raw string. -/
def terminator (hashes : Nat) (multiline : Bool) : List Char :=
  List.replicate (StringText.quoteLength multiline) '"' ++ List.replicate hashes '#'

/-- The extent of a raw string's body and terminator. -/
def bodyExtent (hashes : Nat) (multiline : Bool) : List Char → Extent
  | [] => ⟨0, false⟩
  | c :: rest =>
    if (terminator hashes multiline).isPrefixOf (c :: rest) then
      ⟨(terminator hashes multiline).length, true⟩
    else if !multiline && isLineBreak c then ⟨0, false⟩
    else (bodyExtent hashes multiline rest).behind 1

/-- The extent of the raw string that starts with so many number signs, of which the text follows the
first quote mark. The signs and the opening quote count too. -/
def extent (hashes : Nat) (text : List Char) : Extent :=
  let multiline := StringText.opensMultiline text
  let quote := StringText.quoteLength multiline
  (bodyExtent hashes multiline (text.drop (quote - 1))).behind (hashes + quote)

end RawString

end SwiftColoring
