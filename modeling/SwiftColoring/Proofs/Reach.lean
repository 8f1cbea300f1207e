import SwiftColoring.Proofs.Finding

/-!
# How far a lexeme reaches

The lengths of lexemes are sums of the lengths of runs, of markers and of quotes. A move by more
than what is left would silently stop at the end of the source. No length asks for that: each is
at most the number of characters that are left, be it the length of a lexeme or how far a search
went that failed.

* `Lexer.lexeme_length_le` — a lexeme ends inside the source.
* `Lexer.stop_length_le` — so does a search that fails.
-/

namespace SwiftColoring

-- ---------------------------------------------------------------------------
-- Literals
-- ---------------------------------------------------------------------------

namespace StringText

theorem quoteLength_le_of_startsWithQuote {multiline : Bool} {text : List Char}
    (h : startsWithQuote multiline text = true) : quoteLength multiline ≤ text.length := by
  have hle := (List.isPrefixOf_iff_prefix.mp h).length_le
  rwa [List.length_replicate] at hle

/-- The marks of an opening quote behind its first are there. -/
theorem quoteLength_opensMultiline_le (text : List Char) :
    quoteLength (opensMultiline text) ≤ 1 + text.length := by
  unfold opensMultiline
  split
  · simp only [quoteLength, if_true, List.length_cons]
    omega
  · simp only [quoteLength, Bool.false_eq_true, if_false]
    omega

/-- The search for the end of a literal stops at the end of the text. -/
theorem extent_length_le (multiline : Bool) (text : List Char) :
    (extent multiline text).length ≤ text.length := by
  fun_induction extent multiline text with
  | case1 | case2 | case3 | case4 | case6 | case7 => simp
  | case5 c rest _ _ ih | case8 c rest _ _ _ _ ih =>
    simp only [Extent.behind, List.length_cons]
    omega

end StringText

namespace RawString

/-- So does the search for the end of a raw string. -/
theorem bodyExtent_length_le (hashes : Nat) (multiline : Bool) (text : List Char) :
    (bodyExtent hashes multiline text).length ≤ text.length := by
  fun_induction bodyExtent hashes multiline text with
  | case1 => simp
  | case2 c rest hprefix => exact (List.isPrefixOf_iff_prefix.mp hprefix).length_le
  | case3 => simp
  | case4 c rest _ _ ih =>
    simp only [Extent.behind, List.length_cons]
    omega

/-- The quote of a raw string is counted with its first mark, which the text does not hold. -/
theorem extent_length_le (hashes : Nat) (text : List Char) :
    (extent hashes text).length ≤ hashes + 1 + text.length := by
  have hbody := bodyExtent_length_le hashes (StringText.opensMultiline text)
    (text.drop (StringText.quoteLength (StringText.opensMultiline text) - 1))
  rw [List.length_drop] at hbody
  have hquote := StringText.quoteLength_opensMultiline_le text
  simp only [extent, Extent.behind]
  omega

end RawString

-- ---------------------------------------------------------------------------
-- Numbers
-- ---------------------------------------------------------------------------

namespace Number

theorem digitsLength_le (base : Base) (text : List Char) : digitsLength base text ≤ text.length :=
  (List.takeWhile_prefix _).length_le

/-- A fraction lies in the text. -/
theorem fractionLength_le (base : Base) (text : List Char) :
    fractionLength base text ≤ text.length := by
  unfold fractionLength
  split
  · rename_i d rest
    have hdigits := digitsLength_le base (d :: rest)
    split
    · simp only [List.length_cons] at hdigits ⊢
      omega
    · exact Nat.zero_le _
  · exact Nat.zero_le _

/-- What follows the letter of an exponent lies in the text. -/
theorem powerLength_le (text : List Char) : powerLength text ≤ text.length := by
  unfold powerLength
  split
  · exact Nat.le_refl _
  · rename_i c rest
    split
    · have hdigits := digitsLength_le .decimal rest
      rw [List.length_cons]
      omega
    · exact digitsLength_le ..

/-- An exponent lies in the text. -/
theorem exponentLength_le (base : Base) (text : List Char) :
    exponentLength base text ≤ text.length := by
  unfold exponentLength
  split
  · exact Nat.le_refl _
  · rename_i c rest
    have hpower := powerLength_le rest
    rw [List.length_cons]
    -- an exponent is its letter and its power
    split
    · split <;> omega
    · split <;> omega
    · exact Nat.zero_le _

/-- A number behind its marker lies in the text. -/
theorem measure_length_le (base : Base) (marker : Nat) (text : List Char) :
    (measure base marker text).2 ≤ marker + text.length := by
  have hdigits := digitsLength_le base text
  have hfraction := fractionLength_le base (text.drop (digitsLength base text))
  have hexponent := exponentLength_le base
    (text.drop (digitsLength base text + fractionLength base (text.drop (digitsLength base text))))
  rw [List.length_drop] at hfraction hexponent
  simp only [measure]
  omega

/-- A number lies in the text. -/
theorem ofText_length_le (text : List Char) : (ofText text).2 ≤ text.length := by
  unfold ofText
  split
  · rename_i text
    have hmeasure := measure_length_le .hex 2 text
    simp only [List.length_cons]
    omega
  · rename_i text
    have hdigits := digitsLength_le .octal text
    simp only [List.length_cons]
    omega
  · rename_i text
    have hdigits := digitsLength_le .binary text
    simp only [List.length_cons]
    omega
  · have hmeasure := measure_length_le .decimal 0 text
    omega

end Number

-- ---------------------------------------------------------------------------
-- Words and operators
-- ---------------------------------------------------------------------------

/-- The word that a text starts with lies in it. -/
theorem Word.leading_length_le (text : List Char) : (leading text).length ≤ text.length := by
  unfold leading
  split
  · exact Nat.le_refl _
  · split
    · exact (List.takeWhile_prefix _).length_le
    · exact Nat.zero_le _

/-- What extends an operator lies in the text. -/
theorem Operator.extension_le (dotted : Bool) (closers : List Nat) (index : Nat) (text : List Char) :
    extension dotted closers index text ≤ text.length := by
  fun_induction extension dotted closers index text with
  | case1 | case2 | case3 | case4 => simp
  | case5 index c rest _ _ _ ih =>
    rw [List.length_cons]
    omega

-- ---------------------------------------------------------------------------
-- Lexemes
-- ---------------------------------------------------------------------------

namespace Lexer

variable {l : Lexer} {x : Lexeme} {stop : Interruption} {text : List Char}

/-- What stands behind number signs is as much shorter than the text as there are signs. -/
private theorem length_of_drop_hashes {body : List Char}
    (h : text.drop (text.takeWhile (· == '#')).length = '"' :: body) :
    (text.takeWhile (· == '#')).length + 1 + body.length = text.length := by
  have hlength := congrArg List.length h
  have hle := (List.takeWhile_prefix (· == '#') (l := text)).length_le
  rw [List.length_drop, List.length_cons] at hlength
  omega

/-- A raw string, or as much of it as there is, lies in the text behind the first number sign. -/
private theorem rawString_length_le {body : List Char}
    (h : text.drop (text.takeWhile (· == '#')).length = '"' :: body) :
    (RawString.extent ((text.takeWhile (· == '#')).length + 1) body).length ≤ text.length + 1 := by
  have hbody := length_of_drop_hashes h
  have hextent := RawString.extent_length_le ((text.takeWhile (· == '#')).length + 1) body
  omega

/-- A lexeme ends inside the source, provided that the parenthesis of an interpolation is there. -/
theorem lexeme_length_le (h : l.lexeme = .ok x)
    (hparen : ∀ opening, l.context = .interpolationStart opening → l.rest ≠ []) :
    x.length ≤ l.rest.length := by
  cases finds_of_lexeme h with
  | closingQuote _ hquote => exact StringText.quoteLength_le_of_startsWithQuote hquote
  | backslash _ hopen =>
    refine List.length_pos_iff.mpr fun hnil => ?_
    rw [hnil] at hopen
    cases hopen
  | segment => exact StringText.extent_length_le ..
  | interpolationParen hcontext => exact List.length_pos_iff.mpr (hparen _ hcontext)
  | eof => exact Nat.zero_le _
  | @openingQuote text _ hrest =>
    rw [hrest, List.length_cons, Nat.add_comm]
    exact StringText.quoteLength_opensMultiline_le text
  | rawString _ hrest hbody =>
    rw [hrest]
    exact rawString_length_le hbody
  | @poundKeyword text _ _ hrest =>
    rw [hrest, List.length_cons, Nat.add_comm text.length]
    exact Nat.add_le_add_left (Word.leading_length_le text) 1
  | @dollar text _ hrest | @word _ text _ hrest =>
    rw [hrest, List.length_cons, Nat.add_comm text.length]
    exact Nat.add_le_add_left (List.takeWhile_prefix _).length_le 1
  | @number c text _ hrest =>
    rw [hrest]
    exact Number.ofText_length_le (c :: text)
  | @operator c text length _ hrest hlength =>
    have hextension := Operator.extension_le (c == '.') l.angles.closers (l.index + 1) text
    rw [hrest, List.length_cons]
    show length ≤ _
    omega
  | leftParen _ hrest | interpolationEnd _ hrest | rightParen _ _ hrest | pound _ hrest | mark _ hrest
  | angleBracket _ hrest | postfixQuestion _ hrest | unknown _ hrest =>
    rw [hrest]
    exact Nat.le_add_left 1 _

/-- So does a search that fails. -/
theorem stop_length_le (h : l.lexeme = .error stop) : stop.length ≤ l.rest.length := by
  cases finds_of_interruption h with
  | openString => exact StringText.extent_length_le ..
  | openInterpolation => exact Nat.zero_le _
  | openRawString _ hrest hbody =>
    rw [hrest]
    exact rawString_length_le hbody

end Lexer

end SwiftColoring
