import SwiftColoring.Proofs.Finding

/-!
# What a lexeme can be

The search for a lexeme has many branches, but few of them touch the contexts. `LexemeCase` takes the
others together and tells what each lexeme does to the contexts. Whatever is said about contexts,
quotes and parentheses is proved from these cases.

* `lexeme_cases` — every lexeme is one of the cases.
* `Lexer.contexts_of_lexeme` — the contexts behind it are told by its kind.
* `Lexer.kind_ne_unknown_of_startsToken` — what stands behind a gap is never of unknown kind.
-/

namespace SwiftColoring

/-- Lexemes of this kind leave the contexts alone and do not end the source. -/
def Kind.isOrdinary : Kind → Bool
  | .quote | .multilineQuote | .stringSegment | .interpolationEnd | .leftParen | .rightParen
  | .unknown | .eof => false
  | _ => true

/-- Numbers, words and operators are of such a kind. -/
def Kind.isRun : Kind → Bool
  | .integer _ | .float | .identifier | .keyword _ | .contextualKeyword | .spacedBinary
  | .unspacedBinary | .prefixOperator | .postfixOperator | .prefixAmpersand | .exclamation
  | .infixQuestion | .equal | .arrow | .period | .prefixPeriod => true
  | _ => false

theorem Kind.isOrdinary_of_isRun {kind : Kind} (h : kind.isRun = true) : kind.isOrdinary = true := by
  cases kind <;> first | rfl | cases h

theorem Kind.ne_of_isOrdinary {kind other : Kind} (h : kind.isOrdinary = true)
    (hother : other.isOrdinary = false) : kind ≠ other := by
  rintro rfl
  rw [h] at hother
  cases hother

/-- The contexts behind a lexeme of code of this kind that starts at the place. -/
def Context.behindCode (kind : Kind) (pos : Pos) (contexts : List Context) : List Context :=
  match kind with
  | .leftParen => enterParen contexts
  | .rightParen => leaveParen contexts
  | .interpolationEnd => contexts.tail
  | .quote => .string false pos :: contexts
  | .multilineQuote => .string true pos :: contexts
  | _ => contexts

/-- The contexts behind a lexeme of this kind that starts at the place. -/
def Context.behind (kind : Kind) (pos : Pos) (contexts : List Context) : List Context :=
  match innermost contexts with
  | .string _ opening =>
    match kind with
    | .quote | .multilineQuote => contexts.tail
    | .backslash => .interpolationStart opening :: contexts
    | _ => contexts
  | .interpolationStart opening => .interpolation 0 opening :: contexts.tail
  | .code | .interpolation .. => behindCode kind pos contexts

theorem Context.behind_of_isCode {contexts : List Context} (h : (innermost contexts).isCode = true)
    (kind : Kind) (pos : Pos) : behind kind pos contexts = behindCode kind pos contexts := by
  unfold behind
  cases hcontext : innermost contexts with
  | code | interpolation => rfl
  | string | interpolationStart =>
    rw [hcontext] at h
    cases h

theorem Context.behindCode_of_isOrdinary {kind : Kind} (h : kind.isOrdinary = true) (pos : Pos)
    (contexts : List Context) : behindCode kind pos contexts = contexts := by
  cases kind <;> first | rfl | cases h

namespace Lexer

theorem lexeme_of_isCode {l : Lexer} (h : l.context.isCode = true) : l.lexeme = l.codeLexeme := by
  unfold lexeme
  cases hcontext : l.context with
  | code | interpolation => rfl
  | string | interpolationStart =>
    rw [hcontext] at h
    cases h

/-- No operator holds a character that words go on with. -/
theorem not_operator_of_isWordChar {c : Char} (hc : isWordChar c = true) :
    (c == '.' || isOperatorChar c) = false := by
  have hchars : ∀ d ∈ '.' :: operatorChars, (!isWordChar d) = true := List.all_eq_true.mp (by decide)
  refine Bool.eq_false_iff.mpr fun htrue => ?_
  rw [Bool.or_eq_true, beq_iff_eq, isOperatorChar, List.contains_iff_mem] at htrue
  have hnot := hchars c (List.mem_cons.mpr htrue)
  rw [hc] at hnot
  cases hnot

/-- In code, a number, a word or a lone character starts with a character that words go on with. -/
theorem codeLexeme_of_isWordChar {l : Lexer} {c : Char} {text : List Char} (hrest : l.rest = c :: text)
    (hc : isWordChar c = true) : l.codeLexeme =
      if c.isDigit then .ok (l.plain (Number.ofText (c :: text)).1 (Number.ofText (c :: text)).2)
      else if isWordStart c then .ok (l.wordLexeme c text)
      else .ok (l.plain .unknown 1) := by
  have hne : ∀ d, isWordChar d = false → (c == d) = false := by
    intro d hd
    rw [beq_eq_false_iff_ne]
    rintro rfl
    rw [hd] at hc
    cases hc
  have hmark : markKind? c = none := by
    unfold markKind?
    split
    all_goals first | rfl | exact absurd hc (by decide)
  unfold codeLexeme
  simp only [hrest, hmark, not_operator_of_isWordChar hc, hne '(' (by decide), hne ')' (by decide),
    hne '"' (by decide), hne '#' (by decide), hne '$' (by decide), Bool.false_eq_true, if_false]

/-- Where nothing is left outside of literals, the source ends. -/
theorem lexeme_of_ended {l : Lexer} (hcontext : l.context = .code) (hrest : l.rest = []) :
    l.lexeme = .ok (l.plain .eof 0) := by
  unfold lexeme codeLexeme
  simp only [hcontext, hrest]

/-- What a lexeme can be. -/
inductive LexemeCase (l : Lexer) : Lexeme → Prop where
  /-- The quote that closes a literal. -/
  | closingQuote {multiline : Bool} {opening : Pos} (hcontext : l.context = .string multiline opening)
      (hquote : StringText.startsWithQuote multiline l.rest = true) :
      LexemeCase l { l.plain (quoteKind multiline) (StringText.quoteLength multiline) with
        contexts := l.contexts.tail }
  /-- The backslash before the parenthesis of an interpolation. -/
  | backslash {multiline : Bool} {opening : Pos} (hcontext : l.context = .string multiline opening)
      (hopen : StringText.startsInterpolation l.rest = true) :
      LexemeCase l { l.plain .backslash 1 with contexts := .interpolationStart opening :: l.contexts }
  /-- The text of a literal up to its end or an interpolation. -/
  | segment {multiline : Bool} {opening : Pos} (hcontext : l.context = .string multiline opening)
      (hquote : StringText.startsWithQuote multiline l.rest = false)
      (hopen : StringText.startsInterpolation l.rest = false)
      (hclosed : (StringText.extent multiline l.rest).closed = true) :
      LexemeCase l (l.plain .stringSegment (StringText.extent multiline l.rest).length)
  /-- The parenthesis that opens an interpolation. -/
  | interpolationParen {opening : Pos} (hcontext : l.context = .interpolationStart opening) :
      LexemeCase l { l.plain .leftParen 1 with
        contexts := .interpolation 0 opening :: l.contexts.tail }
  /-- The end of the source. -/
  | eof (hcontext : l.context = .code) (hrest : l.rest = []) : LexemeCase l (l.plain .eof 0)
  /-- An opening parenthesis in code. -/
  | leftParen {text : List Char} (hcode : l.context.isCode = true) (hrest : l.rest = '(' :: text) :
      LexemeCase l { l.plain .leftParen 1 with contexts := Context.enterParen l.contexts }
  /-- A closing parenthesis that ends an interpolation. -/
  | interpolationEnd {opening : Pos} {text : List Char} (hcontext : l.context = .interpolation 0 opening)
      (hrest : l.rest = ')' :: text) :
      LexemeCase l { l.plain .interpolationEnd 1 with contexts := l.contexts.tail }
  /-- A closing parenthesis that ends no interpolation. -/
  | rightParen {text : List Char} (hcode : l.context.isCode = true)
      (hends : l.context.endsInterpolation = false) (hrest : l.rest = ')' :: text) :
      LexemeCase l { l.plain .rightParen 1 with contexts := Context.leaveParen l.contexts }
  /-- The quote that opens a literal. -/
  | openingQuote {text : List Char} (hcode : l.context.isCode = true) (hrest : l.rest = '"' :: text) :
      LexemeCase l (l.openingQuote text)
  /-- Anything else that is a token of code. -/
  | ordinary {kind : Kind} {length : Nat} {angles : AngleMarks} (hcode : l.context.isCode = true)
      (hrest : l.rest ≠ []) (hkind : kind.isOrdinary = true) :
      LexemeCase l ⟨kind, length, l.contexts, angles⟩
  /-- A character that no token starts with. -/
  | unknown {c : Char} {text : List Char} (hcode : l.context.isCode = true) (hrest : l.rest = c :: text)
      (hc : startsToken c = false) :
      LexemeCase l (l.plain .unknown 1)

-- ---------------------------------------------------------------------------
-- Kinds of runs
-- ---------------------------------------------------------------------------

theorem quoteKind_ne {kind : Kind} (hquote : kind ≠ .quote) (hquotes : kind ≠ .multilineQuote)
    (multiline : Bool) : quoteKind multiline ≠ kind := by
  cases multiline with
  | false => exact hquote.symm
  | true => exact hquotes.symm

theorem isOrdinary_markKind? {c : Char} {kind : Kind} (h : markKind? c = some kind) :
    kind.isOrdinary = true := by
  unfold markKind? at h
  split at h <;> simp only [Option.some.injEq, reduceCtorEq] at h <;> rw [← h] <;> rfl

/-- Numbers are integers or floating. -/
theorem kind_of_number {kind : Kind} {text : List Char} (h : (Number.ofText text).1 = kind) :
    (∃ base, kind = .integer base) ∨ kind = .float := by
  have hmeasure : ∀ {base : Base} {marker : Nat} {text : List Char},
      (Number.measure base marker text).1 = kind → (∃ base, kind = .integer base) ∨ kind = .float := by
    intro base marker text h
    unfold Number.measure at h
    simp only at h
    split at h
    · exact .inl ⟨base, h.symm⟩
    · exact .inr h.symm
  unfold Number.ofText at h
  split at h
  · exact hmeasure h
  · exact .inl ⟨.octal, h.symm⟩
  · exact .inl ⟨.binary, h.symm⟩
  · exact hmeasure h

/-- Words are keywords or identifiers. -/
theorem kind_of_word {kind : Kind} {previous : Option Char} {word text : List Char}
    (h : Word.kind previous word text = kind) :
    (∃ k, kind = .keyword k) ∨ kind = .contextualKeyword ∨ kind = .identifier := by
  unfold Word.kind at h
  split at h
  · exact .inr (.inr h.symm)
  · split at h
    · exact .inl ⟨_, h.symm⟩
    · split at h
      · exact .inr (.inl h.symm)
      · exact .inr (.inr h.symm)

theorem isRun_number (text : List Char) : (Number.ofText text).1.isRun = true := by
  generalize h : (Number.ofText text).1 = kind
  rcases kind_of_number h with ⟨base, rfl⟩ | rfl <;> rfl

theorem isRun_word (previous : Option Char) (word text : List Char) :
    (Word.kind previous word text).isRun = true := by
  generalize h : Word.kind previous word text = kind
  rcases kind_of_word h with ⟨k, rfl⟩ | rfl | rfl <;> rfl

theorem isRun_operator (text : List Char) (left right : Bool) :
    (Operator.kind text left right).isRun = true := by
  have hbound : (Operator.boundKind left right).isRun = true := by
    cases left <;> cases right <;> rfl
  unfold Operator.kind
  split
  · rfl
  · rfl
  · split <;> rfl
  · rfl
  · split
    · rfl
    · exact hbound
  · split
    · rfl
    · exact hbound
  · exact hbound

/-- A less-than sign is a bracket that opens, a greater-than sign one that closes. -/
theorem cases_of_angleBracket? {l : Lexer} {c : Char} {text : List Char} {kind : Kind}
    {angles : AngleMarks} (h : l.angleBracket? c text = some (kind, angles)) :
    (c = '<' ∧ kind = .leftAngle) ∨ (c = '>' ∧ kind = .rightAngle) := by
  unfold angleBracket? at h
  split at h
  · rename_i hc
    refine .inl ⟨eq_of_beq hc, ?_⟩
    split at h
    · exact (Prod.mk.inj (Option.some.inj h)).1.symm
    · obtain ⟨marks, -, hmarks⟩ := Option.map_eq_some_iff.mp h
      exact (Prod.mk.inj hmarks).1.symm
  · split at h
    · rename_i hc
      rw [Bool.and_eq_true, beq_iff_eq] at hc
      exact .inr ⟨hc.1, (Prod.mk.inj (Option.some.inj h)).1.symm⟩
    · cases h

theorem kind_of_angleBracket? {l : Lexer} {c : Char} {text : List Char} {kind : Kind}
    {angles : AngleMarks} (h : l.angleBracket? c text = some (kind, angles)) :
    kind = .leftAngle ∨ kind = .rightAngle :=
  (cases_of_angleBracket? h).imp And.right And.right

-- ---------------------------------------------------------------------------
-- The cases
-- ---------------------------------------------------------------------------

section Cases

variable {l : Lexer} {x : Lexeme}

/-- Every lexeme is one of the cases. -/
theorem lexeme_cases (h : l.lexeme = .ok x) : LexemeCase l x := by
  cases finds_of_lexeme h with
  | closingQuote hcontext hquote => exact .closingQuote hcontext hquote
  | backslash hcontext hopen => exact .backslash hcontext hopen
  | segment hcontext hquote hopen hclosed => exact .segment hcontext hquote hopen hclosed
  | interpolationParen hcontext => exact .interpolationParen hcontext
  | eof hcontext hrest => exact .eof hcontext hrest
  | leftParen hcode hrest => exact .leftParen hcode hrest
  | interpolationEnd hcontext hrest => exact .interpolationEnd hcontext hrest
  | rightParen hcode hends hrest => exact .rightParen hcode hends hrest
  | openingQuote hcode hrest => exact .openingQuote hcode hrest
  | unknown hcode hrest hc => exact .unknown hcode hrest hc
  | mark hcode hrest hmark => exact .ordinary hcode (by simp [hrest]) (isOrdinary_markKind? hmark)
  | angleBracket hcode hrest hangle =>
    refine .ordinary hcode (by simp [hrest]) ?_
    rcases kind_of_angleBracket? hangle with rfl | rfl <;> rfl
  | number hcode hrest =>
    exact .ordinary hcode (by simp [hrest]) (Kind.isOrdinary_of_isRun (isRun_number _))
  | word hcode hrest =>
    exact .ordinary hcode (by simp [hrest]) (Kind.isOrdinary_of_isRun (isRun_word ..))
  | operator hcode hrest =>
    exact .ordinary hcode (by simp [hrest]) (Kind.isOrdinary_of_isRun (isRun_operator ..))
  | rawString hcode hrest | poundKeyword hcode hrest | pound hcode hrest | dollar hcode hrest
  | postfixQuestion hcode hrest => exact .ordinary hcode (by simp [hrest]) rfl

/-- The contexts behind a lexeme are told by its kind. -/
theorem contexts_of_lexeme (h : l.lexeme = .ok x) :
    x.contexts = Context.behind x.kind l.pos l.contexts := by
  have hcode : l.context.isCode = true →
      Context.behind x.kind l.pos l.contexts = Context.behindCode x.kind l.pos l.contexts :=
    fun hcode => Context.behind_of_isCode hcode ..
  cases lexeme_cases h with
  | @closingQuote multiline opening hcontext =>
    unfold Context.behind
    rw [show Context.innermost l.contexts = .string multiline opening from hcontext]
    cases multiline <;> rfl
  | backslash hcontext | segment hcontext =>
    unfold Context.behind
    rw [show Context.innermost l.contexts = .string _ _ from hcontext]
    rfl
  | interpolationParen hcontext =>
    unfold Context.behind
    rw [show Context.innermost l.contexts = .interpolationStart _ from hcontext]
  | eof hcontext => exact (hcode (by rw [hcontext]; rfl)).symm
  | interpolationEnd hcontext => exact (hcode (by rw [hcontext]; rfl)).symm
  | leftParen hcode' | rightParen hcode' | unknown hcode' => exact (hcode hcode').symm
  | @openingQuote text hcode' =>
    rw [hcode hcode']
    unfold openingQuote
    cases StringText.opensMultiline text <;> rfl
  | ordinary hcode' _ hordinary => rw [hcode hcode', Context.behindCode_of_isOrdinary hordinary]

/-- Where the end of the source is found, nothing is left of it and no literal is open. -/
theorem at_end_of_kind_eof (h : l.lexeme = .ok x) (hkind : x.kind = .eof) :
    l.context = .code ∧ l.rest = [] := by
  cases lexeme_cases h with
  | eof hcontext hrest => exact ⟨hcontext, hrest⟩
  | closingQuote | openingQuote => exact absurd hkind (quoteKind_ne (by decide) (by decide) _)
  | ordinary _ _ hordinary => exact absurd hkind (Kind.ne_of_isOrdinary hordinary rfl)
  | backslash | segment | interpolationParen | leftParen | interpolationEnd | rightParen | unknown =>
    cases hkind

/-- A lexeme that starts like a token is of a known kind. -/
theorem kind_ne_unknown_of_startsToken (h : l.lexeme = .ok x)
    (hstarts : ∀ c text, l.context.isCode = true → l.rest = c :: text → startsToken c = true) :
    x.kind ≠ .unknown := by
  intro hkind
  cases lexeme_cases h with
  | closingQuote | openingQuote => exact absurd hkind (quoteKind_ne (by decide) (by decide) _)
  | unknown hcode hrest hc =>
    rw [hstarts _ _ hcode hrest] at hc
    cases hc
  | ordinary _ _ hordinary => exact absurd hkind (Kind.ne_of_isOrdinary hordinary rfl)
  | backslash | segment | interpolationParen | eof | leftParen | interpolationEnd | rightParen =>
    cases hkind

end Cases

end Lexer

end SwiftColoring
