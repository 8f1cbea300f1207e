import SwiftColoring.Lexer.Lexeme
import SwiftColoring.Proofs.Gap

/-!
# What the search for a lexeme finds

The search for a lexeme looks at the context first, then at the character at the cursor. `Finds` has one
constructor for each of its branches, failures included, with what led there and what is found. Other
modules split these cases and leave the definition of the search alone.

* `Lexer.Finds` — the branches.
* `Lexer.finds_lexeme` — there are no others.
-/

namespace SwiftColoring

namespace Lexer

/-- What the search for a lexeme finds, and why. -/
inductive Finds (l : Lexer) : Except Interruption Lexeme → Prop where
  /-- The quote that closes a literal. -/
  | closingQuote {multiline : Bool} {opening : Pos} (hcontext : l.context = .string multiline opening)
      (hquote : StringText.startsWithQuote multiline l.rest = true) :
      Finds l (.ok { l.plain (quoteKind multiline) (StringText.quoteLength multiline) with
        contexts := l.contexts.tail })
  /-- The backslash before the parenthesis of an interpolation. -/
  | backslash {multiline : Bool} {opening : Pos} (hcontext : l.context = .string multiline opening)
      (hopen : StringText.startsInterpolation l.rest = true) :
      Finds l (.ok { l.plain .backslash 1 with contexts := .interpolationStart opening :: l.contexts })
  /-- The text of a literal up to its end or an interpolation. -/
  | segment {multiline : Bool} {opening : Pos} (hcontext : l.context = .string multiline opening)
      (hquote : StringText.startsWithQuote multiline l.rest = false)
      (hopen : StringText.startsInterpolation l.rest = false)
      (hclosed : (StringText.extent multiline l.rest).closed = true) :
      Finds l (.ok (l.plain .stringSegment (StringText.extent multiline l.rest).length))
  /-- The text of a literal does not end. -/
  | openString {multiline : Bool} {opening : Pos} (hcontext : l.context = .string multiline opening)
      (hquote : StringText.startsWithQuote multiline l.rest = false)
      (hopen : StringText.startsInterpolation l.rest = false)
      (hclosed : (StringText.extent multiline l.rest).closed = false) :
      Finds l (.error ⟨.openString opening, (StringText.extent multiline l.rest).length⟩)
  /-- The parenthesis that opens an interpolation. -/
  | interpolationParen {opening : Pos} (hcontext : l.context = .interpolationStart opening) :
      Finds l (.ok { l.plain .leftParen 1 with
        contexts := .interpolation 0 opening :: l.contexts.tail })
  /-- The end of the source. -/
  | eof (hcontext : l.context = .code) (hrest : l.rest = []) : Finds l (.ok (l.plain .eof 0))
  /-- The source ends inside an interpolation. -/
  | openInterpolation {depth : Nat} {opening : Pos} (hcontext : l.context = .interpolation depth opening)
      (hrest : l.rest = []) : Finds l (.error ⟨.openInterpolation opening, 0⟩)
  /-- An opening parenthesis in code. -/
  | leftParen {text : List Char} (hcode : l.context.isCode = true) (hrest : l.rest = '(' :: text) :
      Finds l (.ok { l.plain .leftParen 1 with contexts := Context.enterParen l.contexts })
  /-- A closing parenthesis that ends an interpolation. -/
  | interpolationEnd {opening : Pos} {text : List Char} (hcontext : l.context = .interpolation 0 opening)
      (hrest : l.rest = ')' :: text) :
      Finds l (.ok { l.plain .interpolationEnd 1 with contexts := l.contexts.tail })
  /-- A closing parenthesis that ends no interpolation. -/
  | rightParen {text : List Char} (hcode : l.context.isCode = true)
      (hends : l.context.endsInterpolation = false) (hrest : l.rest = ')' :: text) :
      Finds l (.ok { l.plain .rightParen 1 with contexts := Context.leaveParen l.contexts })
  /-- The quote that opens a literal. -/
  | openingQuote {text : List Char} (hcode : l.context.isCode = true) (hrest : l.rest = '"' :: text) :
      Finds l (.ok (l.openingQuote text))
  | rawString {text body : List Char} (hcode : l.context.isCode = true) (hrest : l.rest = '#' :: text)
      (hbody : text.drop (text.takeWhile (· == '#')).length = '"' :: body)
      (hclosed : (RawString.extent ((text.takeWhile (· == '#')).length + 1) body).closed = true) :
      Finds l (.ok (l.plain .rawString
        (RawString.extent ((text.takeWhile (· == '#')).length + 1) body).length))
  /-- A raw string does not end. -/
  | openRawString {text body : List Char} (hcode : l.context.isCode = true) (hrest : l.rest = '#' :: text)
      (hbody : text.drop (text.takeWhile (· == '#')).length = '"' :: body)
      (hclosed : (RawString.extent ((text.takeWhile (· == '#')).length + 1) body).closed = false) :
      Finds l (.error ⟨.openRawString l.pos,
        (RawString.extent ((text.takeWhile (· == '#')).length + 1) body).length⟩)
  | poundKeyword {text : List Char} {k : PoundKeyword} (hcode : l.context.isCode = true)
      (hrest : l.rest = '#' :: text) (hk : PoundKeyword.ofSpelling? (Word.leading text) = some k) :
      Finds l (.ok (l.plain (.poundKeyword k) (1 + (Word.leading text).length)))
  | pound {text : List Char} (hcode : l.context.isCode = true) (hrest : l.rest = '#' :: text) :
      Finds l (.ok (l.plain .pound 1))
  | dollar {text : List Char} (hcode : l.context.isCode = true) (hrest : l.rest = '$' :: text) :
      Finds l (.ok (l.plain .dollarIdentifier (1 + (text.takeWhile isWordChar).length)))
  /-- A character that is a token wherever it stands in code. -/
  | mark {c : Char} {text : List Char} {kind : Kind} (hcode : l.context.isCode = true)
      (hrest : l.rest = c :: text) (hmark : markKind? c = some kind) : Finds l (.ok (l.plain kind 1))
  | number {c : Char} {text : List Char} (hcode : l.context.isCode = true) (hrest : l.rest = c :: text)
      (hdigit : c.isDigit = true) :
      Finds l (.ok (l.plain (Number.ofText (c :: text)).1 (Number.ofText (c :: text)).2))
  | word {c : Char} {text : List Char} (hcode : l.context.isCode = true) (hrest : l.rest = c :: text)
      (hword : isWordStart c = true) : Finds l (.ok (l.wordLexeme c text))
  | angleBracket {c : Char} {text : List Char} {kind : Kind} {angles : AngleMarks}
      (hcode : l.context.isCode = true) (hrest : l.rest = c :: text)
      (hangle : l.angleBracket? c text = some (kind, angles)) :
      Finds l (.ok { l.plain kind 1 with angles })
  | postfixQuestion {text : List Char} (hcode : l.context.isCode = true) (hrest : l.rest = '?' :: text)
      (hleft : Operator.isLeftBound l.before = true) : Finds l (.ok (l.plain .postfixQuestion 1))
  | operator {c : Char} {text : List Char} {length : Nat} (hcode : l.context.isCode = true)
      (hrest : l.rest = c :: text)
      (hlength : length = 1 + Operator.extension (c == '.') l.angles.closers (l.index + 1) text)
      (hc : c = '.' ∨ isOperatorChar c = true) (hangle : l.angleBracket? c text = none)
      (hquestion : c = '?' → Operator.isLeftBound l.before = false) :
      Finds l (.ok (l.plain (Operator.kind (l.rest.take length) (Operator.isLeftBound l.before)
        (Operator.isRightBound (l.rest.drop length))) length))
  /-- A character that no token starts with. -/
  | unknown {c : Char} {text : List Char} (hcode : l.context.isCode = true) (hrest : l.rest = c :: text)
      (hc : startsToken c = false) : Finds l (.ok (l.plain .unknown 1))

-- ---------------------------------------------------------------------------
-- Characters that start a token
-- ---------------------------------------------------------------------------

/-- The characters that are looked for one by one, apart from those that are a token by
themselves. -/
private def singledOut : List Char := ['(', ')', '"', '#', '$', '.']

private theorem punctuation_cases :
    ∀ c ∈ punctuationChars, c = '`' ∨ c ∈ singledOut ∨ (markKind? c).isSome = true := by
  simp [punctuationChars, singledOut, markKind?]

/-- The search for a lexeme of code tries every character that can start one. -/
private theorem startsToken_cases {c : Char} (h : startsToken c = true) :
    c ∈ singledOut ∨ (markKind? c).isSome = true ∨ c.isDigit = true ∨ isWordStart c = true ∨
      isOperatorChar c = true := by
  simp only [startsToken, isGarbage, Bool.not_eq_true', Bool.or_eq_false_iff, Bool.not_eq_false',
    beq_eq_false_iff_ne] at h
  obtain ⟨⟨hblank, htick⟩, hclass⟩ := h
  simp only [hblank, Bool.false_or, Bool.or_eq_true, or_assoc] at hclass
  rcases hclass with hword | hdigit | hoperator | hpunctuation
  · exact .inr (.inr (.inr (.inl hword)))
  · exact .inr (.inr (.inl hdigit))
  · exact .inr (.inr (.inr (.inr hoperator)))
  · rcases punctuation_cases c (List.contains_iff_mem.mp hpunctuation) with htick' | hsingle | hmark
    · exact absurd htick' htick
    · exact .inl hsingle
    · exact .inr (.inl hmark)

-- ---------------------------------------------------------------------------
-- The branches
-- ---------------------------------------------------------------------------

variable {l : Lexer} {c : Char} {text : List Char}

private theorem finds_stringPart {multiline : Bool} {opening : Pos}
    (hcontext : l.context = .string multiline opening) : l.Finds (l.stringPart multiline opening) := by
  unfold stringPart
  split
  · exact .closingQuote hcontext ‹_›
  rename_i hquote
  split
  · exact .backslash hcontext ‹_›
  rename_i hopen
  rw [Bool.not_eq_true] at hquote hopen
  simp only
  split
  · exact .segment hcontext hquote hopen ‹_›
  · exact .openString hcontext hquote hopen (Bool.eq_false_iff.mpr ‹_›)

private theorem finds_closingParen (hcode : l.context.isCode = true) (hrest : l.rest = ')' :: text) :
    l.Finds (.ok l.closingParen) := by
  unfold closingParen
  split
  · rename_i hends
    -- only the innermost parenthesis level of an interpolation ends it
    cases hcontext : l.context with
    | interpolation depth opening =>
      rw [hcontext] at hends
      cases depth with
      | zero => exact .interpolationEnd hcontext hrest
      | succ depth => cases hends
    | code | string | interpolationStart =>
      rw [hcontext] at hends
      cases hends
  · rename_i hends
    exact .rightParen hcode (Bool.eq_false_iff.mpr hends) hrest

private theorem finds_poundLexeme (hcode : l.context.isCode = true) (hrest : l.rest = '#' :: text) :
    l.Finds (l.poundLexeme text) := by
  unfold poundLexeme
  simp only
  split
  · rename_i hbody
    split
    · exact .rawString hcode hrest hbody ‹_›
    · exact .openRawString hcode hrest hbody (Bool.eq_false_iff.mpr ‹_›)
  · split
    · exact .poundKeyword hcode hrest ‹_›
    · exact .pound hcode hrest

private theorem finds_operatorLexeme (hcode : l.context.isCode = true) (hrest : l.rest = c :: text)
    (hc : c = '.' ∨ isOperatorChar c = true) : l.Finds (.ok (l.operatorLexeme c text)) := by
  unfold operatorLexeme
  split
  · exact .angleBracket hcode hrest ‹_›
  rename_i hangle
  simp only
  split
  · rename_i hquestion
    rw [Bool.and_eq_true] at hquestion
    exact .postfixQuestion hcode (eq_of_beq hquestion.1 ▸ hrest) hquestion.2
  · rename_i hquestion
    refine .operator hcode hrest rfl hc hangle ?_
    rintro rfl
    rw [beq_self_eq_true, Bool.true_and] at hquestion
    exact Bool.eq_false_iff.mpr hquestion

private theorem finds_codeLexeme (hcode : l.context.isCode = true) : l.Finds l.codeLexeme := by
  unfold codeLexeme
  split
  · rename_i hrest
    split
    · exact .openInterpolation ‹_› hrest
    · rename_i hcontext
      -- the only context of code besides interpolations is plain code
      cases hctx : l.context with
      | code => exact .eof hctx hrest
      | interpolation depth opening => exact absurd hctx (hcontext depth opening)
      | string | interpolationStart =>
        rw [hctx] at hcode
        cases hcode
  · rename_i c text hrest
    split
    · rename_i hc
      exact .leftParen hcode (eq_of_beq hc ▸ hrest)
    split
    · rename_i hc
      exact finds_closingParen hcode (eq_of_beq hc ▸ hrest)
    split
    · rename_i hc
      exact .openingQuote hcode (eq_of_beq hc ▸ hrest)
    split
    · rename_i hc
      exact finds_poundLexeme hcode (eq_of_beq hc ▸ hrest)
    split
    · rename_i hc
      exact .dollar hcode (eq_of_beq hc ▸ hrest)
    split
    · exact .mark hcode hrest ‹_›
    split
    · exact .number hcode hrest ‹_›
    split
    · exact .word hcode hrest ‹_›
    split
    · rename_i hc
      rw [Bool.or_eq_true, beq_iff_eq] at hc
      exact finds_operatorLexeme hcode hrest hc
    rename_i hopen hclose hquote hpound hdollar _ hnoMark hnoDigit hnoWord hnoOperator
    refine .unknown hcode hrest (Bool.eq_false_iff.mpr fun hstarts => ?_)
    -- each class of characters that start a token was tried before
    rcases startsToken_cases hstarts with hsingle | hmark | hdigit | hword | hoperator
    · simp only [singledOut, List.mem_cons, List.not_mem_nil, or_false] at hsingle
      rcases hsingle with rfl | rfl | rfl | rfl | rfl | rfl
      · exact hopen rfl
      · exact hclose rfl
      · exact hquote rfl
      · exact hpound rfl
      · exact hdollar rfl
      · exact hnoOperator rfl
    · rw [hnoMark] at hmark
      cases hmark
    · exact hnoDigit hdigit
    · exact hnoWord hword
    · exact hnoOperator (by rw [hoperator, Bool.or_true])

/-- Whatever the search for a lexeme finds, it finds in one of its branches. -/
theorem finds_lexeme (l : Lexer) : l.Finds l.lexeme := by
  unfold lexeme
  split
  · exact finds_stringPart ‹_›
  · exact .interpolationParen ‹_›
  · rename_i hcontext
    exact finds_codeLexeme (by rw [hcontext]; rfl)
  · rename_i hcontext
    exact finds_codeLexeme (by rw [hcontext]; rfl)

theorem finds_of_lexeme {x : Lexeme} (h : l.lexeme = .ok x) : l.Finds (.ok x) := h ▸ l.finds_lexeme

theorem finds_of_interruption {stop : Interruption} (h : l.lexeme = .error stop) :
    l.Finds (.error stop) := h ▸ l.finds_lexeme

end Lexer

end SwiftColoring
