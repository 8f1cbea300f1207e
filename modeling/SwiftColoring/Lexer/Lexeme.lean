import SwiftColoring.Failure
import SwiftColoring.Lexer.Basic
import SwiftColoring.Lexeme.Number
import SwiftColoring.Lexeme.Operator
import SwiftColoring.Lexeme.StringText
import SwiftColoring.Lexeme.Word

/-!
# The lexeme at the cursor

What the text at the cursor is, without the trivia around it: its kind, its length, and the contexts
and angle brackets after it. Where no lexeme is found, the characters looked at are passed all the
same.

* `lexeme_length_pos` — every lexeme has a length, save the end of the source and a parenthesis that
  an interpolation awaits in vain.
-/

namespace SwiftColoring

/-- A lexeme and what it changes. -/
structure Lexeme where
  kind : Kind
  /-- The number of characters. -/
  length : Nat
  /-- The contexts behind it. -/
  contexts : List Context
  /-- The angle brackets known behind it. -/
  angles : AngleMarks
  deriving DecidableEq, Repr

/-- A failure to find a lexeme. -/
structure Interruption where
  failure : Failure
  /-- The number of characters passed. -/
  length : Nat
  deriving DecidableEq, Repr

namespace Lexer

/-- A lexeme that leaves contexts and brackets as they are. -/
def plain (l : Lexer) (kind : Kind) (length : Nat) : Lexeme := ⟨kind, length, l.contexts, l.angles⟩

/-- The kind of a quote. -/
def quoteKind (multiline : Bool) : Kind := if multiline then .multilineQuote else .quote

/-- The quote that opens a literal; the text is behind its first mark. -/
def openingQuote (l : Lexer) (text : List Char) : Lexeme :=
  let multiline := StringText.opensMultiline text
  { l.plain (quoteKind multiline) (StringText.quoteLength multiline) with
    contexts := .string multiline l.pos :: l.contexts }

/-- A part of a literal: its closing quote, the backslash of an interpolation, or a run of text. -/
def stringPart (l : Lexer) (multiline : Bool) (opening : Pos) : Except Interruption Lexeme :=
  if StringText.startsWithQuote multiline l.rest then
    .ok { l.plain (quoteKind multiline) (StringText.quoteLength multiline) with
      contexts := l.contexts.tail }
  else if StringText.startsInterpolation l.rest then
    .ok { l.plain .backslash 1 with contexts := .interpolationStart opening :: l.contexts }
  else
    let extent := StringText.extent multiline l.rest
    if extent.closed then .ok (l.plain .stringSegment extent.length)
    else .error ⟨.openString opening, extent.length⟩

/-- A raw string, a pound keyword or a lone number sign; the text is behind the first sign. -/
def poundLexeme (l : Lexer) (text : List Char) : Except Interruption Lexeme :=
  let hashes := (text.takeWhile (· == '#')).length
  match text.drop hashes with
  | '"' :: body =>
    let extent := RawString.extent (hashes + 1) body
    if extent.closed then .ok (l.plain .rawString extent.length)
    else .error ⟨.openRawString l.pos, extent.length⟩
  | _ =>
    match PoundKeyword.ofSpelling? (Word.leading text) with
    | some k => .ok (l.plain (.poundKeyword k) (1 + (Word.leading text).length))
    | none => .ok (l.plain .pound 1)

/-- The angle bracket that the character is, if it is one, with the brackets known behind it. -/
def angleBracket? (l : Lexer) (c : Char) (text : List Char) : Option (Kind × AngleMarks) :=
  if c == '<' then
    if l.angles.openers.contains l.index then some (.leftAngle, l.angles)
    else (GenericArguments.ofText? l.before.head? l.index text).map fun marks =>
      (.leftAngle, l.angles.append marks)
  else if c == '>' && l.angles.closers.contains l.index then some (.rightAngle, l.angles)
  else none

/-- An angle bracket, or an operator that starts with the character. -/
def operatorLexeme (l : Lexer) (c : Char) (text : List Char) : Lexeme :=
  match l.angleBracket? c text with
  | some (kind, angles) => { l.plain kind 1 with angles }
  | none =>
    let left := Operator.isLeftBound l.before
    if c == '?' && left then l.plain .postfixQuestion 1
    else
      let length := 1 + Operator.extension (c == '.') l.angles.closers (l.index + 1) text
      l.plain (Operator.kind (l.rest.take length) left (Operator.isRightBound (l.rest.drop length)))
        length

/-- A word that starts with the character. -/
def wordLexeme (l : Lexer) (c : Char) (text : List Char) : Lexeme :=
  let length := 1 + (text.takeWhile isWordChar).length
  l.plain (Word.kind l.before.head? (c :: text.takeWhile isWordChar) (text.dropWhile isWordChar))
    length

/-- The kind of a character that is a token wherever it stands in code. -/
def markKind? : Char → Option Kind
  | '{' => some .leftBrace
  | '}' => some .rightBrace
  | '[' => some .leftBracket
  | ']' => some .rightBracket
  | ',' => some .comma
  | ':' => some .colon
  | ';' => some .semicolon
  | '@' => some .atSign
  | '\\' => some .backslash
  | _ => none

/-- A closing parenthesis: the end of an interpolation, or a delimiter. -/
def closingParen (l : Lexer) : Lexeme :=
  if l.context.endsInterpolation then
    { l.plain .interpolationEnd 1 with contexts := l.contexts.tail }
  else { l.plain .rightParen 1 with contexts := Context.leaveParen l.contexts }

/-- The lexeme in code. -/
def codeLexeme (l : Lexer) : Except Interruption Lexeme :=
  match l.rest with
  | [] =>
    match l.context with
    | .interpolation _ opening => .error ⟨.openInterpolation opening, 0⟩
    | _ => .ok (l.plain .eof 0)
  | c :: text =>
    -- characters that may change the context
    if c == '(' then
      .ok { l.plain .leftParen 1 with contexts := Context.enterParen l.contexts }
    else if c == ')' then .ok l.closingParen
    else if c == '"' then .ok (l.openingQuote text)
    else if c == '#' then l.poundLexeme text
    else if c == '$' then
      .ok (l.plain .dollarIdentifier (1 + (text.takeWhile isWordChar).length))
    else
      match markKind? c with
      | some kind => .ok (l.plain kind 1)
      | none =>
        -- runs of characters
        if c.isDigit then .ok (l.plain (Number.ofText (c :: text)).1 (Number.ofText (c :: text)).2)
        else if isWordStart c then .ok (l.wordLexeme c text)
        else if c == '.' || isOperatorChar c then .ok (l.operatorLexeme c text)
        else .ok (l.plain .unknown 1)

/-- The lexeme at the cursor. -/
def lexeme (l : Lexer) : Except Interruption Lexeme :=
  match l.context with
  | .string multiline opening => l.stringPart multiline opening
  | .interpolationStart opening =>
    .ok { l.plain .leftParen 1 with contexts := .interpolation 0 opening :: l.contexts.tail }
  | .code | .interpolation .. => l.codeLexeme

/-! ## Lexemes have a length -/

theorem quoteLength_pos (multiline : Bool) : 0 < StringText.quoteLength multiline := by
  cases multiline <;> decide

private theorem ne_nil_of_startsWithQuote {multiline : Bool} {text : List Char}
    (h : StringText.startsWithQuote multiline text = true) : text ≠ [] := by
  rintro rfl
  cases multiline <;> simp [StringText.startsWithQuote, StringText.quoteLength] at h

theorem stringPart_length_pos {l : Lexer} {multiline : Bool} {opening : Pos} {x : Lexeme}
    (h : l.stringPart multiline opening = .ok x) : l.rest ≠ [] ∧ 0 < x.length := by
  unfold stringPart at h
  split at h
  · rename_i hquote
    obtain rfl := Except.ok.inj h
    exact ⟨ne_nil_of_startsWithQuote hquote, quoteLength_pos multiline⟩
  · rename_i hquote
    split at h
    · rename_i hopen
      obtain rfl := Except.ok.inj h
      refine ⟨?_, Nat.one_pos⟩
      -- nothing starts in an empty text
      intro hnil
      simp [hnil, StringText.startsInterpolation] at hopen
    · rename_i hopen
      simp only at h
      split at h
      · rename_i hclosed
        obtain rfl := Except.ok.inj h
        refine ⟨?_, StringText.extent_length_pos (by simpa using hquote) (by simpa using hopen) hclosed⟩
        intro hnil
        simp [hnil, StringText.extent] at hclosed
      · simp at h

private theorem poundLexeme_length_pos {l : Lexer} {text : List Char} {x : Lexeme}
    (h : l.poundLexeme text = .ok x) : 0 < x.length := by
  unfold poundLexeme at h
  simp only at h
  split at h
  · split at h
    · obtain rfl := Except.ok.inj h
      simp only [plain, RawString.extent, Extent.behind]
      omega
    · simp at h
  · split at h
    all_goals
      obtain rfl := Except.ok.inj h
      simp only [plain]
      omega

private theorem operatorLexeme_length_pos (l : Lexer) (c : Char) (text : List Char) :
    0 < (l.operatorLexeme c text).length := by
  unfold operatorLexeme
  split
  · exact Nat.one_pos
  · simp only
    split
    · exact Nat.one_pos
    · simp only [plain]
      omega

theorem codeLexeme_length_pos {l : Lexer} {x : Lexeme} (h : l.codeLexeme = .ok x) :
    x.kind = .eof ∨ (l.rest ≠ [] ∧ 0 < x.length) := by
  unfold codeLexeme at h
  split at h
  · split at h
    · simp at h
    · obtain rfl := Except.ok.inj h
      exact .inl rfl
  · rename_i c text hrest
    right
    refine ⟨by simp [hrest], ?_⟩
    split at h
    · obtain rfl := Except.ok.inj h
      exact Nat.one_pos
    split at h
    · obtain rfl := Except.ok.inj h
      unfold closingParen
      split <;> exact Nat.one_pos
    split at h
    · obtain rfl := Except.ok.inj h
      exact quoteLength_pos _
    split at h
    · exact poundLexeme_length_pos h
    split at h
    · obtain rfl := Except.ok.inj h
      simp only [plain]
      omega
    split at h
    · obtain rfl := Except.ok.inj h
      exact Nat.one_pos
    split at h
    · rename_i hdigit
      obtain rfl := Except.ok.inj h
      exact Number.ofText_length_pos hdigit text
    split at h
    · obtain rfl := Except.ok.inj h
      simp only [wordLexeme, plain]
      omega
    split at h
    · obtain rfl := Except.ok.inj h
      exact operatorLexeme_length_pos l c text
    · obtain rfl := Except.ok.inj h
      exact Nat.one_pos

theorem lexeme_length_pos {l : Lexer} {x : Lexeme} (h : l.lexeme = .ok x) :
    x.kind = .eof ∨ (l.rest ≠ [] ∧ 0 < x.length) ∨
      ∃ opening, l.context = .interpolationStart opening ∧
        x.contexts = .interpolation 0 opening :: l.contexts.tail := by
  unfold lexeme at h
  split at h
  · exact .inr (.inl (stringPart_length_pos h))
  · rename_i opening hcontext
    obtain rfl := Except.ok.inj h
    exact .inr (.inr ⟨opening, hcontext, rfl⟩)
  · exact (codeLexeme_length_pos h).imp id .inl
  · exact (codeLexeme_length_pos h).imp id .inl

end Lexer

end SwiftColoring
