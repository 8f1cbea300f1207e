import SwiftColoring.Proofs.Neighbours

/-!
# Words and what follows them

Whether an accessor or a modifier acts as a keyword is decided before the next token exists, by a look at
the characters behind the word. The look passes blanks and line breaks and stops at the first other
character. What it sees there is the token that is handed out next, with nothing but blanks before it, or
the start of other trivia, behind which no token would do.

* `Word.isMarkedBy` — the tokens that make a keyword of the word before them.
* `Lexer.actsAsKeyword_of_lexeme` — the look sees the lexeme that starts where it stops.
* `Lexer.actsAsKeyword_of_takesAll` — so it agrees with the trivia and the token that follow.
* `words_are_told_by_what_follows` — the whole statement.
-/

namespace SwiftColoring

-- ---------------------------------------------------------------------------
-- What follows a word
-- ---------------------------------------------------------------------------

/-- Tokens of this kind are words. -/
def Kind.isWord : Kind → Bool
  | .keyword _ | .contextualKeyword | .identifier => true
  | _ => false

theorem Kind.isWord_of_isOperator {kind : Kind} (h : kind.isOperator = true) : kind.isWord = false := by
  cases kind <;> first | rfl | cases h

theorem Number.isWord_ofText (text : List Char) : (ofText text).1.isWord = false := by
  generalize h : (ofText text).1 = kind
  rcases Lexer.kind_of_number h with ⟨base, rfl⟩ | rfl <;> rfl

/-- The piece is made of blanks or line breaks. -/
def Piece.isBlank : Piece → Bool
  | .run .backtick _ => false
  | .run _ _ => true
  | _ => false

namespace Word

/-- Accessors that may have a parameter. -/
def setters : List String := ["set", "willSet", "didSet"]

/-- A token of the kind with the text makes a keyword of the word before it. -/
def isMarkedBy (word : List Char) (kind : Kind) (text : List Char) : Bool :=
  kind.isWord && (isAccessor text || isModifier text) ||
    match kind with
    | .keyword k => k.isDeclaration
    | .leftBrace | .rightBrace => isAccessor word
    | .leftParen => setters.any fun w => w.toList == word
    | _ => false

theorem isMarkedBy_of_isOperator {kind : Kind} (h : kind.isOperator = true) (word text : List Char) :
    isMarkedBy word kind text = false := by
  cases kind <;> first | rfl | cases h

theorem isAccessor_and_ne_get (word : List Char) :
    (isAccessor word && word != "get".toList) = setters.any fun w => w.toList == word := by
  have hget : setters.any (fun w => w.toList == "get".toList) = false := by simp [setters]
  have hsplit : isAccessor word = ("get".toList == word || setters.any fun w => w.toList == word) :=
    List.any_cons
  rw [hsplit]
  by_cases hword : word = "get".toList
  · rw [hword, hget, bne_self_eq_false, Bool.and_false]
  · rw [(bne_iff_ne ..).mpr hword, beq_eq_false_iff_ne.mpr (Ne.symm hword), Bool.and_true, Bool.false_or]

/-- Only what is not blank is looked at. -/
theorem actsAsKeyword_of_dropWhile {word text text' : List Char}
    (h : text.dropWhile isWhitespace = text'.dropWhile isWhitespace) :
    actsAsKeyword word text = actsAsKeyword word text' := by
  unfold actsAsKeyword
  rw [h]

theorem actsAsKeyword_cons {c : Char} (hblank : isWhitespace c = false) (word rest : List Char) :
    actsAsKeyword word (c :: rest) =
      if c == '{' || c == '}' then isAccessor word
      else if c == '(' then isAccessor word && word != "get".toList
      else followsModifier (leading (c :: rest)) := by
  unfold actsAsKeyword
  rw [List.dropWhile_cons_of_neg (by rw [hblank]; exact Bool.false_ne_true)]

/-- The look at what follows is in vain where neither a word nor one of three marks stands. -/
theorem actsAsKeyword_of_other {c : Char} (hblank : isWhitespace c = false)
    (hmarks : c ∉ ['{', '}', '(']) (hword : isWordStart c = false) (word rest : List Char) :
    actsAsKeyword word (c :: rest) = false := by
  simp only [List.mem_cons, List.not_mem_nil, or_false, not_or] at hmarks
  have hleading : leading (c :: rest) = [] := if_neg (by rw [hword]; exact Bool.false_ne_true)
  rw [actsAsKeyword_cons hblank, beq_false_of_ne hmarks.1, beq_false_of_ne hmarks.2.1,
    beq_false_of_ne hmarks.2.2, hleading]
  exact (by decide +kernel : followsModifier [] = false)

theorem actsAsKeyword_of_not_separator {c : Char} (hc : c ∉ separators) (hword : isWordStart c = false)
    (word rest : List Char) : actsAsKeyword word (c :: rest) = false := by
  simp only [separators, List.mem_cons, List.not_mem_nil, or_false, not_or] at hc
  exact actsAsKeyword_of_other (by simp [isWhitespace, hc]) (by simp [hc]) hword _ _

theorem actsAsKeyword_of_operator {c : Char} (hc : c = '.' ∨ isOperatorChar c = true)
    (word rest : List Char) : actsAsKeyword word (c :: rest) = false := by
  have hchars : ∀ c ∈ '.' :: operatorChars,
      isWhitespace c = false ∧ c ∉ ['{', '}', '('] ∧ isWordStart c = false :=
    List.forall_iff_forall_mem.mp (by decide)
  have hmem : c ∈ '.' :: operatorChars := List.mem_cons.mpr (hc.imp_right List.contains_iff_mem.mp)
  obtain ⟨hblank, hmarks, hword⟩ := hchars c hmem
  exact actsAsKeyword_of_other hblank hmarks hword _ _

theorem actsAsKeyword_of_word {c : Char} (hc : isWordStart c = true) (word rest : List Char) :
    actsAsKeyword word (c :: rest) = followsModifier (c :: rest.takeWhile isWordChar) := by
  have hchar := isWordChar_of_isWordStart hc
  have hother := not_separator_of_isWordChar hchar
  simp only [separators, List.mem_cons, List.not_mem_nil, or_false, not_or] at hother
  have hblank : isWhitespace c = false := by simp [isWhitespace, hother]
  have hleading : leading (c :: rest) = c :: rest.takeWhile isWordChar := by
    rw [leading, if_pos hc, List.takeWhile_cons_of_pos hchar]
  rw [actsAsKeyword_cons hblank, hleading]
  simp [hother]

/-- What stands behind an accessor or a modifier is asked for its text; its kind tells the same, as
no backtick has made an identifier of it. -/
theorem followsModifier_eq {previous : Option Char} (hprevious : previous ≠ some '`')
    (word text rest : List Char) :
    followsModifier text = isMarkedBy word (kind previous text rest) text := by
  unfold followsModifier kind
  rw [beq_false_of_ne hprevious]
  cases hkeyword : Keyword.ofSpelling? text with
  | some k => simp [isMarkedBy, Kind.isWord]
  | none =>
    simp only [Bool.false_eq_true, if_false]
    split <;> simp [isMarkedBy, Kind.isWord]

theorem kind_eq_keyword_iff {previous : Option Char} {word text : List Char} (hprevious : previous ≠ some '`')
    {k : Keyword} : kind previous word text = .keyword k ↔ word = k.spelling.toList := by
  rw [← Keyword.ofSpelling?_eq_some_iff]
  unfold kind
  rw [beq_false_of_ne hprevious]
  cases Keyword.ofSpelling? word with
  | some j => simp
  | none =>
    simp only [Bool.false_eq_true, if_false]
    split <;> simp

theorem kind_of_not_keyword {previous : Option Char} {word text : List Char} (hprevious : previous ≠ some '`')
    (hword : ∀ k : Keyword, word ≠ k.spelling.toList) :
    kind previous word text =
      if previous != some '.' && (isAccessor word || isModifier word) && actsAsKeyword word text then
        .contextualKeyword
      else .identifier := by
  have hnone : Keyword.ofSpelling? word = none := by
    refine Option.eq_none_iff_forall_ne_some.mpr fun k hk => ?_
    exact hword k (Keyword.ofSpelling?_eq_some_iff.mp hk)
  unfold kind
  rw [beq_false_of_ne hprevious, hnone]
  rfl

end Word

/-- A digit continues a word and starts none. -/
theorem isWordStart_of_isDigit {c : Char} (h : c.isDigit = true) : isWordStart c = false := by
  have hlast : c ≤ '9' := of_decide_eq_true (Bool.and_eq_true_iff.mp h).2
  have hascii : Unicode.isAscii c = true :=
    decide_eq_true (Nat.lt_of_le_of_lt (UInt32.le_iff_toNat_le.mp hlast) (by decide))
  have hscore : c ≠ '_' := by
    rintro rfl
    exact absurd h (by decide)
  have halpha : c.isAlpha = false := by
    refine Bool.eq_false_iff.mpr fun hletter => ?_
    -- both ranges of letters lie behind the digits
    rcases Bool.or_eq_true_iff.mp hletter with hupper | hlower
    · have hfirst : 'A' ≤ c := (of_decide_eq_true hupper).1
      exact absurd (Char.le_trans hfirst hlast) (by decide)
    · have hfirst : 'a' ≤ c := of_decide_eq_true (Bool.and_eq_true_iff.mp hlower).1
      exact absurd (Char.le_trans hfirst hlast) (by decide)
  rw [isWordStart, Unicode.isAlphabetic_eq_isAlpha hascii, halpha, beq_false_of_ne hscore]
  rfl

-- ---------------------------------------------------------------------------
-- The look at what follows
-- ---------------------------------------------------------------------------

namespace Lexer

variable {l m : Lexer} {p : Piece} {kind : Kind} {word text : List Char} {pieces : List Piece}

theorem isWhitespace_of_isBlank (hblank : p.isBlank = true) : ∀ c ∈ p.text, isWhitespace c = true := by
  cases p with
  | run unit n =>
    have hunits : unit = .backtick ∨ unit.text.all isWhitespace = true := by
      cases unit <;> first | exact .inl rfl | exact .inr rfl
    rcases hunits with rfl | hunit
    · cases hblank
    · exact fun c hc => List.all_eq_true.mp hunit c (RunUnit.mem_text_of_mem_run hc)
  | lineComment | blockComment | garbage => cases hblank

/-- Other trivia starts with a character behind which nothing is looked at. -/
theorem actsAsKeyword_of_piece (h : l.Takes (.piece p) m) (hblank : p.isBlank = false) (word : List Char) :
    Word.actsAsKeyword word l.rest = false := by
  cases pieceCase_of_start h.start_of_piece with
  | @run unit hunit =>
    obtain ⟨rest, hrest⟩ := RunUnit.text_isPrefix_of_ofText? hunit
    have hbacktick : unit = .backtick := by cases unit <;> first | rfl | cases hblank
    rw [← hrest, hbacktick]
    exact Word.actsAsKeyword_of_other rfl (by decide) (by decide) _ _
  | lineComment htext | blockComment htext | script _ htext =>
    rw [htext]
    exact Word.actsAsKeyword_of_other rfl (by decide) (by decide) _ _
  | @garbage c rest htext hc =>
    rw [htext]
    have hword : isWordStart c = false := by
      simp only [isGarbage, Bool.not_eq_true', Bool.or_eq_false_iff] at hc
      exact hc.1.1.1.2
    exact Word.actsAsKeyword_of_not_separator (not_separator_of_isGarbage hc) hword _ _

/-- A word takes the characters up to the first that continues no word. -/
theorem split_of_word {c : Char} (hrest : l.rest = c :: text) :
    l.rest.take (l.wordLexeme c text).length = c :: text.takeWhile isWordChar ∧
      l.rest.drop (l.wordLexeme c text).length = text.dropWhile isWordChar := by
  have hsplit : l.rest = c :: text.takeWhile isWordChar ++ text.dropWhile isWordChar := by
    rw [hrest, List.cons_append, List.takeWhile_append_dropWhile]
  have hlength : (l.wordLexeme c text).length = (c :: text.takeWhile isWordChar).length :=
    Nat.add_comm ..
  rw [hlength, hsplit]
  exact ⟨List.take_left, List.drop_left⟩

/-- The look at what follows sees the lexeme where it stops. -/
theorem actsAsKeyword_of_lexeme (h : l.Takes (.lexeme kind text) m) (hcode : l.context.isCode = true)
    (hbefore : l.before.head? ≠ some '`') (word : List Char) :
    Word.actsAsKeyword word l.rest = Word.isMarkedBy word kind text := by
  have hstart := h.stop_of_lexeme hcode
  cases h with
  | @lexeme x _ hx =>
    cases finds_of_lexeme hx with
    | closingQuote hcontext | backslash hcontext | segment hcontext | interpolationParen hcontext =>
      rw [hcontext] at hcode
      cases hcode
    | eof _ hrest =>
      rw [hrest]
      rfl
    | leftParen _ hrest =>
      rw [hrest, Word.actsAsKeyword_cons rfl]
      exact Word.isAccessor_and_ne_get word
    | interpolationEnd _ hrest | rightParen _ _ hrest | rawString _ hrest | poundKeyword _ hrest
    | pound _ hrest | dollar _ hrest | postfixQuestion _ hrest =>
      rw [hrest]
      exact Word.actsAsKeyword_of_other rfl (by decide) (by decide) _ _
    | @openingQuote text _ hrest =>
      rw [hrest, Word.actsAsKeyword_of_other rfl (by decide) (by decide)]
      unfold openingQuote
      cases StringText.opensMultiline text <;> rfl
    | mark _ hrest hmark =>
      rw [hrest]
      unfold markKind? at hmark
      split at hmark
      all_goals cases hmark
      -- of the marks only the braces are asked for
      all_goals first
        | exact Word.actsAsKeyword_of_other rfl (by decide) (by decide) _ _
        | rw [Word.actsAsKeyword_cons rfl]; rfl
    | @number c _ _ hrest hdigit =>
      have hc := not_separator_of_isWordChar (@Base.isWordChar_of_hasDigit .decimal c hdigit)
      rw [hrest, Word.actsAsKeyword_of_not_separator hc (isWordStart_of_isDigit hdigit)]
      generalize hkind : (Number.ofText _).1 = kind
      rcases kind_of_number hkind with ⟨base, rfl⟩ | rfl <;> rfl
    | @word c text _ hrest hword =>
      rw [(split_of_word hrest).1, hrest, Word.actsAsKeyword_of_word hword]
      exact Word.followsModifier_eq hbefore word _ _
    | angleBracket _ hrest hangle =>
      rw [hrest]
      rcases cases_of_angleBracket? hangle with ⟨rfl, rfl⟩ | ⟨rfl, rfl⟩
      all_goals exact Word.actsAsKeyword_of_operator (.inr rfl) _ _
    | operator _ hrest _ hc =>
      rw [hrest, Word.actsAsKeyword_of_operator hc]
      exact (Word.isMarkedBy_of_isOperator (isOperator_kind ..) _ _).symm
    | unknown _ hrest hc =>
      rw [hrest] at hstart
      rw [startsToken_of_stop hstart] at hc
      cases hc

/-- The look at what follows passes blanks, and no other trivia. -/
theorem actsAsKeyword_of_takesAll (h : l.TakesAll (pieces.map .piece ++ [.lexeme kind text]) m)
    (hcode : l.context.isCode = true) (hbefore : l.before.head? ≠ some '`') (word : List Char) :
    Word.actsAsKeyword word l.rest = (pieces.all Piece.isBlank && Word.isMarkedBy word kind text) := by
  induction pieces generalizing l with
  | nil =>
    cases h with
    | cons hfirst => exact actsAsKeyword_of_lexeme hfirst hcode hbefore word
  | cons p pieces ih =>
    cases h with
    | @cons _ k _ _ _ hfirst hrest =>
      rw [List.all_cons]
      cases hblank : p.isBlank with
      | false => exact actsAsKeyword_of_piece hfirst hblank word
      | true =>
        have hspaces := isWhitespace_of_isBlank hblank
        have hsame : l.rest.dropWhile isWhitespace = k.rest.dropWhile isWhitespace := by
          rw [hfirst.rest_eq]
          exact List.dropWhile_append_of_pos hspaces
        have hbehind : k.before.head? ≠ some '`' := by
          -- the last character passed is blank
          obtain ⟨first, c, hlast⟩ := List.eq_nil_or_concat p.text |>.resolve_left
            (GapStart.ofText_eq_piece hfirst.start_of_piece).1
          have hc : isWhitespace c = true := hspaces c (by rw [hlast]; simp)
          have hbefore_eq : k.before = p.text.reverse ++ l.before := hfirst.before_eq
          rw [hbefore_eq, hlast, List.concat_eq_append, List.reverse_append]
          rintro heq
          obtain rfl : c = '`' := Option.some.inj heq
          cases hc
        have hcode' : k.context.isCode = true := by
          cases hfirst with
          | piece => exact hcode
        rw [Word.actsAsKeyword_of_dropWhile hsame, ih hrest hcode' hbehind, Bool.true_and]

-- ---------------------------------------------------------------------------
-- Words
-- ---------------------------------------------------------------------------

/-- The lexer cuts off a word, which is as long as it can be. -/
structure TakesWord (l : Lexer) (kind : Kind) (text : List Char) (m : Lexer) : Prop where
  starts : ∃ c ∈ text.head?, isWordStart c = true
  chars : ∀ c ∈ text, isWordChar c = true
  stops : ∀ c ∈ m.rest.head?, isWordChar c = false
  code : m.context.isCode = true
  kind_eq : kind = Word.kind l.before.head? text m.rest

theorem takesWord_of_takes (h : l.Takes (.lexeme kind text) m) (hkind : kind.isWord = true) :
    l.TakesWord kind text m := by
  cases h with
  | @lexeme x _ hx =>
    cases finds_of_lexeme hx with
    | @word c text hcode hrest hword =>
      have hbehind : (l.accept (l.wordLexeme c text)).rest = text.dropWhile isWordChar :=
        (split_of_word hrest).2
      rw [(split_of_word hrest).1]
      refine ⟨⟨c, rfl, hword⟩, ?_, ?_, hcode, ?_⟩
      · refine List.forall_mem_cons.mpr ⟨isWordChar_of_isWordStart hword, fun d hd => ?_⟩
        exact List.mem_takeWhile_imp hd
      · intro d hd
        have hstop := List.head?_dropWhile_not isWordChar text
        rw [hbehind, Option.mem_def] at hd
        rwa [hd] at hstop
      · rw [hbehind]
        rfl
    | closingQuote | openingQuote =>
      simp only [openingQuote, plain, quoteKind] at hkind
      split at hkind <;> cases hkind
    | mark _ _ hmark =>
      unfold markKind? at hmark
      split at hmark
      all_goals cases hmark
      all_goals cases hkind
    | angleBracket _ _ hangle => rcases kind_of_angleBracket? hangle with rfl | rfl <;> cases hkind
    | number => exact absurd hkind (Bool.eq_false_iff.mp (Number.isWord_ofText _))
    | operator => exact absurd hkind (Bool.eq_false_iff.mp (Kind.isWord_of_isOperator (isOperator_kind ..)))
    | backslash | segment | interpolationParen | eof | leftParen | interpolationEnd | rightParen
    | rawString | poundKeyword | pound | dollar | postfixQuestion | unknown => cases hkind

end Lexer

-- ---------------------------------------------------------------------------
-- The whole statement
-- ---------------------------------------------------------------------------

/-- What makes a keyword of an accessor or a modifier, with so many characters before it and the token
behind it. -/
structure Token.IsMarked (front : List Char) (t next : Token) : Prop where
  special : Word.isAccessor t.text = true ∨ Word.isModifier t.text = true
  /-- Behind a dot it is a member. -/
  member : front.getLast? ≠ some '.'
  blank : ∀ p ∈ t.trailing ++ next.leading, p.isBlank = true
  marked : Word.isMarkedBy t.text next.kind next.text = true

/-- The token is a word with so much of the source before and behind it, and its kind is told by what
stands directly before it, by its spelling and by the next token. -/
structure Token.IsWordBefore (front : List Char) (t next : Token) (back : List Char) : Prop where
  starts : ∃ c ∈ t.text.head?, isWordStart c = true
  chars : ∀ c ∈ t.text, isWordChar c = true
  stops : ∀ c ∈ back.head?, isWordChar c = false
  escaped : front.getLast? = some '`' → t.kind = .identifier
  keyword : front.getLast? ≠ some '`' → ∀ k, t.kind = .keyword k ↔ t.text = k.spelling.toList
  contextual : front.getLast? ≠ some '`' → (∀ k : Keyword, t.text ≠ k.spelling.toList) →
    (t.kind = .contextualKeyword ↔ t.IsMarked front next)
  identifier : front.getLast? ≠ some '`' → (∀ k : Keyword, t.text ≠ k.spelling.toList) →
    ¬ t.IsMarked front next → t.kind = .identifier

namespace Lexer

variable {t next : Token} {k m : Lexer}

/-- The look at what follows a word agrees with the token that is handed out next. -/
theorem TakesWord.actsAsKeyword_eq {n : Lexer} {after : List Token}
    (hword : k.TakesWord t.kind t.text m) (htakes : k.Takes (.lexeme t.kind t.text) m)
    (hbehind : m.TakesAll (t.trailing.map .piece ++ partsOf (next :: after)) n) :
    Word.actsAsKeyword t.text m.rest =
      ((t.trailing ++ next.leading).all Piece.isBlank && Word.isMarkedBy t.text next.kind next.text) := by
  have hparts : t.trailing.map .piece ++ partsOf (next :: after) =
      ((t.trailing ++ next.leading).map .piece ++ [.lexeme next.kind next.text]) ++
        (next.trailing.map .piece ++ partsOf after) := by
    simp only [partsOf, List.flatMap_cons, Token.parts, List.append_assoc, List.map_append,
      List.cons_append, List.nil_append]
  rw [hparts] at hbehind
  obtain ⟨j, hnext, -⟩ := hbehind.exists_between
  refine actsAsKeyword_of_takesAll hnext hword.code ?_ t.text
  -- the last character of the word is no backtick
  obtain ⟨c, hc, -⟩ := hword.starts
  obtain ⟨first, d, hlast⟩ := (List.eq_nil_or_concat t.text).resolve_left fun hnil => by
    rw [hnil] at hc
    cases hc
  have hd : isWordChar d = true := hword.chars d (by rw [hlast]; simp)
  rw [htakes.before_eq, Part.text, hlast, List.concat_eq_append, List.reverse_append]
  intro heq
  obtain rfl : d = '`' := Option.some.inj heq
  exact absurd hd (by decide)

end Lexer

/-- **Words are told by what follows them.** Every word of a source starts like one and is as long as it
can be. It is an identifier if a backtick stands directly before it, and a keyword if it is spelled like
one. An accessor or a modifier that is no member acts as a keyword exactly if nothing but blanks and line
breaks stands between it and the next token, and that token marks it. All other words are identifiers. -/
theorem words_are_told_by_what_follows {source : List Char} {before behind : List Token} {t : Token}
    (h : tokens source = .ok (before ++ t :: behind)) (hkind : t.kind.isWord = true) :
    ∃ next after back, behind = next :: after ∧
      source = before.flatMap Token.fullText ++ t.leading.text ++ t.text ++ back ∧
      t.IsWordBefore (before.flatMap Token.fullText ++ t.leading.text) next back := by
  have heof : t.kind ≠ .eof := by
    intro heof
    rw [heof] at hkind
    cases hkind
  obtain ⟨next, after, -, -, -, rfl, -⟩ := Lexer.exists_calls_of_tokens h heof
  obtain ⟨k, m, n, hbefore, htakes, hbehind⟩ := Lexer.exists_takes_of_tokens h
  have hword := Lexer.takesWord_of_takes htakes hkind
  have hfront : Part.textOf (partsOf before ++ t.leading.map .piece) =
      before.flatMap Token.fullText ++ t.leading.text := by
    rw [Part.textOf_append, textOf_partsOf, Part.textOf_pieces]
  have hprevious : k.before.head? = (before.flatMap Token.fullText ++ t.leading.text).getLast? := by
    rw [hbefore.before_eq, hfront]
    exact (congrArg List.head? (List.append_nil _)).trans List.head?_reverse
  have hkind_eq := hword.kind_eq
  rw [hprevious] at hkind_eq
  have hsource : source = before.flatMap Token.fullText ++ t.leading.text ++ t.text ++ m.rest := by
    have hrest := hbefore.rest_eq
    rw [hfront, htakes.rest_eq, ← List.append_assoc] at hrest
    exact hrest
  generalize before.flatMap Token.fullText ++ t.leading.text = front at hkind_eq hsource
  have hmarked : (front.getLast? != some '.' && (Word.isAccessor t.text || Word.isModifier t.text) &&
      Word.actsAsKeyword t.text m.rest) = true ↔ t.IsMarked front next := by
    rw [hword.actsAsKeyword_eq htakes hbehind]
    simp only [Bool.and_eq_true, Bool.or_eq_true, bne_iff_ne, List.all_eq_true]
    constructor
    · rintro ⟨⟨hmember, hspecial⟩, hblank, hmark⟩
      exact ⟨hspecial, hmember, hblank, hmark⟩
    · rintro ⟨hspecial, hmember, hblank, hmark⟩
      exact ⟨⟨hmember, hspecial⟩, hblank, hmark⟩
  refine ⟨next, after, m.rest, rfl, hsource, hword.starts, hword.chars, hword.stops, ?_, ?_, ?_, ?_⟩
  · intro hescaped
    rw [hkind_eq, hescaped]
    rfl
  · intro hbare j
    rw [hkind_eq]
    exact Word.kind_eq_keyword_iff hbare
  · intro hbare hother
    rw [hkind_eq, Word.kind_of_not_keyword hbare hother, ← hmarked]
    split <;> simp_all
  · intro hbare hother hunmarked
    rw [hkind_eq, Word.kind_of_not_keyword hbare hother, if_neg (mt hmarked.mp hunmarked)]

/-- A modifier acts as a keyword before a declaration on the next line, as the first word of this source
does. -/
theorem words_are_told_by_what_follows_modifier :
    ∃ t next after, tokens "lazy\nvar a".toList = .ok (t :: next :: after) ∧
      t.kind = .contextualKeyword ∧ next.kind = .keyword .varKw ∧ t.IsMarked [] next := by
  have hshapes : (tokens "lazy\nvar a".toList).toOption.map
      (List.map fun t => (t.kind, t.leading)) =
        some [(.contextualKeyword, []), (.keyword .varKw, [.run .newline 1]), (.identifier, []),
          (.eof, [])] := by
    decide +kernel
  obtain ⟨ts, hts, hmap⟩ := exists_ok_of_toOption_map hshapes
  obtain ⟨t, behind, rfl, ht, hmap⟩ := List.map_eq_cons_iff.mp hmap
  obtain ⟨hkind, hleading⟩ := Prod.mk.inj ht
  replace hkind : t.kind = .contextualKeyword := hkind
  replace hleading : t.leading = [] := hleading
  have hts' : tokens "lazy\nvar a".toList = .ok ([] ++ t :: behind) := hts
  obtain ⟨next, after, back, rfl, -, h⟩ :=
    words_are_told_by_what_follows hts' (by rw [hkind]; rfl)
  obtain ⟨hnext, -⟩ := List.cons.inj hmap
  rw [hleading] at h
  refine ⟨t, next, after, hts, hkind, (Prod.mk.inj hnext).1, (h.contextual (by simp) ?_).mp hkind⟩
  -- a keyword spelled like the modifier would be the token's kind
  intro k hk
  have hkeyword := (h.keyword (by simp) k).mpr hk
  rw [hkind] at hkeyword
  cases hkeyword

end SwiftColoring
