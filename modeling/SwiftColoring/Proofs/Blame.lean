import SwiftColoring.Proofs.Balance
import SwiftColoring.Proofs.Excerpt
import SwiftColoring.Proofs.Failing
import SwiftColoring.Proofs.Literals

/-!
# Failures blame what is at fault

The place that a failure blames was often passed long before the failure, and was kept meanwhile in
the contexts of the lexer or among the open groups of a tree. Whatever happened since, it is the
place of a character of the source: of the opening marker of a comment, of the quote or number sign
that opens a literal, or of a delimiter. A report finds its line and underlines it there.

* `Failure.Blames` — what stands at the place to blame, for each failure.
* `exists_blames` — every failure blames what it should.
* `failures_are_underlined` — the whole statement.
-/

namespace SwiftColoring

-- ---------------------------------------------------------------------------
-- Delimiters
-- ---------------------------------------------------------------------------

/-- The character that a delimiter is. -/
def Kind.delimiter? : Kind → Option Char
  | .leftParen => some '('
  | .rightParen | .interpolationEnd => some ')'
  | .leftBrace => some '{'
  | .rightBrace => some '}'
  | .leftBracket => some '['
  | .rightBracket => some ']'
  | _ => none

namespace Kind

theorem exists_delimiter_of_opens {kind : Kind} (h : kind.opensGroup = true) :
    ∃ c, kind.delimiter? = some c := by
  unfold opensGroup at h
  split at h
  case h_4 => cases h
  all_goals exact ⟨_, rfl⟩

theorem exists_delimiter_of_closes {kind : Kind} (h : kind.closesGroup = true) :
    ∃ c, kind.delimiter? = some c := by
  unfold closesGroup at h
  split at h
  case h_5 => cases h
  all_goals exact ⟨_, rfl⟩

theorem delimiter?_of_isRun {kind : Kind} (h : kind.isRun = true) : kind.delimiter? = none := by
  cases kind <;> first | rfl | cases h

/-- A delimiter is no break. -/
theorem delimiter?_plain {kind : Kind} {c : Char} (h : kind.delimiter? = some c) :
    c ≠ '\n' ∧ c ≠ '\r' := by
  unfold delimiter? at h
  split at h <;> cases h <;> decide

end Kind

namespace Lexer

variable {source : List Char} {l m behind : Lexer} {ts : List Token} {t : Token} {x : Lexeme}
  {c : Char}

private theorem delimiter_of_markKind? {kind : Kind} {d : Char} (h : markKind? c = some kind)
    (hkind : kind.delimiter? = some d) : d = c := by
  unfold markKind? at h
  split at h <;> cases h <;> cases hkind <;> rfl

/-- A delimiter is the one character at the cursor. -/
theorem lexeme_of_delimiter (hl : l.ParenAwaits) (h : l.lexeme = .ok x)
    (hx : x.kind.delimiter? = some c) : ∃ text, l.rest = c :: text ∧ x.length = 1 := by
  have hrun : ∀ {kind : Kind}, kind.isRun = true → kind.delimiter? ≠ some c := fun hrun hsome => by
    rw [Kind.delimiter?_of_isRun hrun] at hsome
    cases hsome
  have hquote : ∀ multiline, (quoteKind multiline).delimiter? ≠ some c := by
    rintro (_ | _) hsome <;> cases hsome
  cases finds_of_lexeme h with
  | interpolationParen hcontext =>
    obtain rfl := Option.some.inj hx
    obtain ⟨text, htext⟩ := List.head?_eq_some_iff.mp (hl _ hcontext)
    exact ⟨text, htext, rfl⟩
  | leftParen _ hrest | interpolationEnd _ hrest | rightParen _ _ hrest =>
    obtain rfl := Option.some.inj hx
    exact ⟨_, hrest, rfl⟩
  | mark _ hrest hmark =>
    obtain rfl := delimiter_of_markKind? hmark hx
    exact ⟨_, hrest, rfl⟩
  | closingQuote | openingQuote => exact absurd hx (hquote _)
  | number => exact absurd hx (hrun (isRun_number _))
  | word => exact absurd hx (hrun (isRun_word ..))
  | operator => exact absurd hx (hrun (isRun_operator ..))
  | angleBracket _ _ hangle => rcases kind_of_angleBracket? hangle with rfl | rfl <;> cases hx
  | backslash | segment | eof | rawString | poundKeyword | pound | dollar | postfixQuestion | unknown =>
    cases hx

/-- A delimiter that a call hands out is one character of the source, and its span is that of the
character. -/
theorem Reads.delimiter (hreads : (ofText source).Reads ts m) (hnext : m.next = (.ok t, behind))
    (hc : t.kind.delimiter? = some c) :
    ∃ passed text, source = passed ++ [c] ++ text ∧ t.text = [c] ∧
      t.span = ⟨Pos.behind passed, (Pos.behind passed).advance c⟩ := by
  obtain ⟨leading, here, x, trailing, hleading, hx, -, rfl⟩ := next_ok_iff.mp hnext
  have hhere := (hreads.inOrder (inOrder_ofText source)).takeLeading hleading
  obtain ⟨text, hrest, hlength⟩ := lexeme_of_delimiter hhere.paren hx hc
  have htake : here.rest.take x.length = [c] := by
    rw [hrest, hlength]
    rfl
  refine ⟨here.before.reverse, text, ?_, htake, ?_⟩
  · rw [List.append_assoc, List.singleton_append, ← hrest, hhere.isIn.split]
  · show Span.mk here.pos (here.pos.after (here.rest.take x.length)) = _
    rw [htake, hhere.isIn.pos_eq]
    rfl

end Lexer

-- ---------------------------------------------------------------------------
-- What failures blame
-- ---------------------------------------------------------------------------

/-- Trivia is looked for where the lexer stands: behind tokens of the source, or behind a lexeme that
follows them. -/
inductive Lexer.AtGap (source : List Char) : Bool → Lexer → Prop where
  | leading {ts : List Token} {m : Lexer} (hreads : (ofText source).Reads ts m) : AtGap source false m
  | trailing {ts : List Token} {m here : Lexer} {leading : Trivia} {x : Lexeme}
      (hreads : (ofText source).Reads ts m) (hleading : m.takeLeading = (.ok leading, here))
      (hx : here.lexeme = .ok x) : AtGap source true (here.accept x)

/-- The token is a delimiter of the source, and the text is what precedes it there. -/
structure Token.IsDelimiter (source passed : List Char) (c : Char) (t : Token) : Prop where
  mem : t ∈ (TokenStream.ofText source).tokens
  kind_eq : t.kind.delimiter? = some c
  text_eq : t.text = [c]
  span_eq : t.span = ⟨Pos.behind passed, (Pos.behind passed).advance c⟩

/-- What the failure blames: in the source, it stands directly behind the first text and is the second
one. -/
inductive Failure.Blames (source passed : List Char) : Failure → List Char → Prop where
  /-- The marker of the outermost comment: it stands among trivia, and nothing behind it closes it. -/
  | openBlockComment {trailing : Bool} {l here : Lexer} {rest : List Char}
      (hgap : Lexer.AtGap source trailing l) (hmeets : l.MeetsOpenComment trailing here)
      (hpassed : here.before.reverse = passed) (hrest : here.rest = '/' :: '*' :: rest)
      (hopen : Comment.closing? 0 rest = none) :
      Blames source passed (.openBlockComment ⟨.behind passed, (Pos.behind passed).after ['/', '*']⟩)
        ['/', '*']
  /-- The opening quote of the innermost open literal: all that stands behind it is in its text. -/
  | openString {ts body : List Token} {quote : Token} {multiline hasText : Bool}
      (htokens : (TokenStream.ofText source).tokens = ts ++ quote :: body)
      (hquote : quote.kind = Lexer.quoteKind multiline) (hbody : IsLiteralBody hasText body)
      (hstart : quote.span.start = .behind passed) :
      Blames source passed (.openString (.behind passed)) ['"']
  /-- The opening quote of the innermost open literal: all that stands behind it is in its text and in
  the interpolation. -/
  | openInterpolation {ts body inner own : List Token} {quote backslash paren : Token}
      {multiline hasText : Bool}
      (htokens : (TokenStream.ofText source).tokens =
        ts ++ quote :: (body ++ backslash :: paren :: inner))
      (hquote : quote.kind = Lexer.quoteKind multiline) (hbody : IsLiteralBody hasText body)
      (hbackslash : backslash.kind = .backslash) (hparen : paren.kind = .leftParen)
      (hinner : IsCode inner own) (hstart : quote.span.start = .behind passed) :
      Blames source passed (.openInterpolation (.behind passed)) ['"']
  /-- The first number sign of the raw string, which comes next behind the tokens and trivia. -/
  | openRawString {leading : Trivia} {text body : List Char}
      (hpassed : passed = (TokenStream.ofText source).tokens.flatMap Token.fullText ++ leading.text)
      (hsource : source = passed ++ '#' :: text)
      (hbody : text.drop (text.takeWhile (· == '#')).length = '"' :: body)
      (hopen : (RawString.extent ((text.takeWhile (· == '#')).length + 1) body).closed = false) :
      Blames source passed (.openRawString (.behind passed)) ['#']
  | unexpectedClosing {t : Token} {c : Char} (ht : t.IsDelimiter source passed c) :
      Blames source passed (.unexpectedClosing t.kind t.span) [c]
  | mismatchedClosing {t : Token} {c : Char} {opener : Kind} {openedAt : Span}
      (ht : t.IsDelimiter source passed c) :
      Blames source passed (.mismatchedClosing t.kind t.span opener openedAt) [c]
  | unclosedGroup {t : Token} {c : Char} (ht : t.IsDelimiter source passed c) :
      Blames source passed (.unclosedGroup t.kind t.span) [c]

namespace Failure.Blames

variable {source passed mark : List Char} {failure : Failure}

/-- What is blamed is named by a span on one line. -/
theorem exists_span (h : failure.Blames source passed mark) :
    ∃ span, failure.diagnostic = ⟨.parse, failure.message, some span⟩ ∧
      span.start = Pos.behind passed ∧ span.stop.line = span.start.line ∧
      max 1 (span.stop.column - span.start.column) = mark.length := by
  have hdelimiter : ∀ {t : Token} {c : Char}, t.IsDelimiter source passed c →
      t.span.start = Pos.behind passed ∧ t.span.stop.line = t.span.start.line ∧
        max 1 (t.span.stop.column - t.span.start.column) = [c].length := by
    intro t c ht
    have hc := (Kind.delimiter?_plain ht.kind_eq).1
    rw [ht.span_eq, Pos.advance, if_neg hc]
    exact ⟨rfl, rfl, by simp⟩
  cases h with
  | openBlockComment => exact ⟨_, rfl, rfl, rfl, by simp [Pos.advance, Nat.add_assoc]⟩
  | openString | openInterpolation | openRawString => exact ⟨_, rfl, rfl, rfl, by simp [Span.point]⟩
  | unexpectedClosing ht | mismatchedClosing ht | unclosedGroup ht => exact ⟨_, rfl, hdelimiter ht⟩

/-- What is blamed is no break, and not nothing. -/
theorem mark_plain (h : failure.Blames source passed mark) :
    mark ≠ [] ∧ ∀ c ∈ mark, c ≠ '\n' ∧ c ≠ '\r' := by
  cases h with
  | openBlockComment | openString | openInterpolation | openRawString => simp
  | unexpectedClosing ht | mismatchedClosing ht | unclosedGroup ht =>
    refine ⟨by simp, fun d hd => ?_⟩
    rw [List.mem_singleton.mp hd]
    exact Kind.delimiter?_plain ht.kind_eq

end Failure.Blames

-- ---------------------------------------------------------------------------
-- Failures of the lexer
-- ---------------------------------------------------------------------------

namespace Lexer

variable {source : List Char} {l m here behind : Lexer} {ts : List Token} {failure : Failure}
  {trailing : Bool}

/-- A comment that does not end is met at its marker. -/
theorem AtGap.blames (hgap : AtGap source trailing l) (horder : l.InOrder source)
    (hmeets : l.MeetsOpenComment trailing here) :
    ∃ passed mark text, source = passed ++ mark ++ text ∧
      (Failure.openBlockComment ⟨here.pos, here.pos.after (here.rest.take 2)⟩).Blames source passed
        mark := by
  obtain ⟨rest, hrest, hopen⟩ := hmeets.rest_eq
  have hin : here.toCursor.IsIn source := by
    rw [hmeets.eq_advance]
    exact horder.isIn.advance _
  refine ⟨here.before.reverse, ['/', '*'], rest, ?_, ?_⟩
  · rw [List.append_assoc, ← hin.split, hrest]
    rfl
  · rw [hin.pos_eq, hrest]
    exact .openBlockComment hgap hmeets rfl hrest hopen

/-- A place that the contexts remember is that of a quote mark. -/
theorem InOrder.exists_quote (h : l.InOrder source) {opening : Pos}
    (hopening : opening ∈ Context.literals l.contexts) :
    ∃ passed text, source = passed ++ ['"'] ++ text ∧ opening = Pos.behind passed := by
  obtain ⟨i, -, hquote, rfl⟩ := h.nest.quotes opening hopening
  obtain ⟨hi, hget⟩ := List.getElem?_eq_some_iff.mp hquote
  refine ⟨source.take i, source.drop (i + 1), ?_, rfl⟩
  rw [List.append_assoc, List.singleton_append, ← hget, List.getElem_cons_drop, List.take_append_drop]

theorem tokens_of_failure (hreads : (ofText source).Reads ts m) (hnext : m.next.1 = .error failure) :
    (TokenStream.ofText source).tokens = ts := by
  unfold TokenStream.ofText
  rw [stream_of_reads hreads rfl, stream_of_error hnext, List.append_nil]

section Literals

variable {leading : Trivia} {opening : Pos} (hreads : (ofText source).Reads ts m)
  (htokens : (TokenStream.ofText source).tokens = ts) (hleading : m.takeLeading = (.ok leading, here))

include hreads htokens hleading

/-- What has been read tells which literal is open. -/
private theorem Reads.blames_openString {multiline : Bool}
    (hcontext : here.context = .string multiline opening) :
    ∃ passed text, source = passed ++ ['"'] ++ text ∧
      (Failure.openString opening).Blames source passed ['"'] := by
  have hhere := (hreads.inOrder (inOrder_ofText source)).takeLeading hleading
  have hcontexts : here.contexts = m.contexts := by
    rw [(takeLeading_ok hleading).1.eq_advance, advance_contexts]
  obtain ⟨hasText, hreading, -⟩ := hreads.hasRead
  obtain ⟨outer, houter⟩ := Context.eq_cons_of_innermost hcontext (by simp)
  have hremembered : opening ∈ Context.literals here.contexts := by
    rw [houter]
    exact List.mem_cons_self ..
  obtain ⟨passed, text, hsource, rfl⟩ := hhere.exists_quote hremembered
  rw [← hcontexts, houter] at hreading
  cases hreading with
  | string _ _ hquote _ hstart hbody =>
    exact ⟨passed, text, hsource, .openString htokens hquote hbody hstart⟩

/-- Below an interpolation stand its start and the literal that it is in. -/
private theorem Reads.blames_openInterpolation {depth : Nat}
    (hcontext : here.context = .interpolation depth opening) :
    ∃ passed text, source = passed ++ ['"'] ++ text ∧
      (Failure.openInterpolation opening).Blames source passed ['"'] := by
  have hhere := (hreads.inOrder (inOrder_ofText source)).takeLeading hleading
  have hcontexts : here.contexts = m.contexts := by
    rw [(takeLeading_ok hleading).1.eq_advance, advance_contexts]
  obtain ⟨hasText, hreading, -⟩ := hreads.hasRead
  obtain ⟨outer, houter⟩ := Context.eq_cons_of_innermost hcontext (by simp)
  rw [← hcontexts, houter] at hreading
  cases hreading with
  | interpolation hbegun hparen _ hinner hopen =>
    cases hbegun with
    | interpolationStart hliteral hbackslash hnone =>
      cases hliteral with
      | string _ _ hquote _ hstart hbody =>
        have hremembered : opening ∈ Context.literals here.contexts := by
          rw [houter]
          exact List.mem_cons_self ..
        obtain ⟨passed, text, hsource, rfl⟩ := hhere.exists_quote hremembered
        simp only [List.append_assoc, List.cons_append, List.nil_append] at htokens
        exact ⟨passed, text, hsource,
          .openInterpolation htokens hquote hbody hbackslash hparen hinner hstart⟩

private theorem Reads.blames_openRawString {text body : List Char} (hrest : here.rest = '#' :: text)
    (hbody : text.drop (text.takeWhile (· == '#')).length = '"' :: body)
    (hclosed : (RawString.extent ((text.takeWhile (· == '#')).length + 1) body).closed = false) :
    ∃ passed, source = passed ++ ['#'] ++ text ∧
      (Failure.openRawString here.pos).Blames source passed ['#'] := by
  have hm := hreads.inOrder (inOrder_ofText source)
  have hpasses := (takeLeading_ok hleading).1
  have hhere := (hm.takeLeading hleading).isIn
  have hbefore : here.before.reverse = ts.flatMap Token.fullText ++ leading.text := by
    obtain ⟨more, hmore⟩ := hpasses.text_isPrefix
    rw [hpasses.eq_advance, advance_toCursor, Cursor.advance_before, ← hmore, List.take_left,
      List.reverse_append, List.reverse_reverse, ← hm.isIn.take_index, hreads.standInTurn.2]
  have hsource : source = here.before.reverse ++ '#' :: text := by
    rw [← hrest, hhere.split]
  rw [hhere.pos_eq]
  refine ⟨here.before.reverse, ?_, .openRawString (by rw [htokens, hbefore]) hsource hbody hclosed⟩
  rw [List.append_assoc]
  exact hsource

end Literals

/-- A failure of a call blames what it should. -/
theorem Reads.blames (hreads : (ofText source).Reads ts m) (hnext : m.next = (.error failure, behind)) :
    ∃ passed mark text, source = passed ++ mark ++ text ∧ failure.Blames source passed mark := by
  have hm := hreads.inOrder (inOrder_ofText source)
  have htokens := tokens_of_failure hreads (congrArg Prod.fst hnext)
  cases callFails_next hnext with
  | leading hmeets => exact (AtGap.leading hreads).blames hm hmeets
  | trailing hleading hx _ hmeets =>
    exact (AtGap.trailing hreads hleading hx).blames ((hm.takeLeading hleading).accept hx) hmeets
  | lexeme hleading hstop =>
    cases finds_of_interruption hstop with
    | openString hcontext =>
      obtain ⟨passed, text, hblames⟩ := hreads.blames_openString htokens hleading hcontext
      exact ⟨passed, ['"'], text, hblames⟩
    | openInterpolation hcontext =>
      obtain ⟨passed, text, hblames⟩ := hreads.blames_openInterpolation htokens hleading hcontext
      exact ⟨passed, ['"'], text, hblames⟩
    | openRawString _ hrest hbody hclosed =>
      obtain ⟨passed, hblames⟩ := hreads.blames_openRawString htokens hleading hrest hbody hclosed
      exact ⟨passed, ['#'], _, hblames⟩

end Lexer

-- ---------------------------------------------------------------------------
-- The whole statement
-- ---------------------------------------------------------------------------

namespace SourceTree

variable {source : List Char} {failure : Failure}

/-- Every failure blames what it should. -/
theorem exists_blames (h : ofText? source = .error failure) :
    ∃ passed mark text, source = passed ++ mark ++ text ∧ failure.Blames source passed mark := by
  -- a delimiter that is handed out is blamed where it stands
  have hdelimiter : ∀ {ts : List Token} {m : Lexer} {t : Token} {c : Char},
      (Lexer.ofText source).Reads ts m → m.next.1 = .ok t → t.kind.delimiter? = some c →
      ∃ passed text, source = passed ++ [c] ++ text ∧ t.IsDelimiter source passed c := by
    intro ts m t c hreads hnext hc
    obtain ⟨passed, text, hsource, htext, hspan⟩ := hreads.delimiter (Prod.ext hnext rfl) hc
    refine ⟨passed, text, hsource, ?_, hc, htext, hspan⟩
    have hkind : t.kind ≠ .eof := by
      intro hkind
      rw [hkind] at hc
      cases hc
    unfold TokenStream.ofText
    rw [Lexer.stream_of_reads (hreads.snoc (Prod.ext hnext rfl) hkind) rfl]
    simp
  cases firstFault_of_ofText? h with
  | unexpected hreads hopen hnext hcloses =>
    obtain ⟨c, hc⟩ := Kind.exists_delimiter_of_closes hcloses
    obtain ⟨passed, text, hsource, ht⟩ := hdelimiter hreads hnext hc
    exact ⟨passed, [c], text, hsource, .unexpectedClosing ht⟩
  | mismatched hreads hopen hnext hcloses hpair =>
    obtain ⟨c, hc⟩ := Kind.exists_delimiter_of_closes hcloses
    obtain ⟨passed, text, hsource, ht⟩ := hdelimiter hreads hnext hc
    exact ⟨passed, [c], text, hsource, .mismatchedClosing ht⟩
  | lexer hreads hopen hnext => exact hreads.blames (Prod.ext hnext rfl)
  | @unclosed ts opened m o eof hreads hopen hnext hkind =>
    -- the group was opened by one of the tokens handed out
    cases hopen with
    | opening hpre hopens hinner =>
      obtain ⟨k, behind, hfirst, hk, -⟩ := hreads.exists_next rfl
      obtain ⟨c, hc⟩ := Kind.exists_delimiter_of_opens hopens
      obtain ⟨passed, text, hsource, ht⟩ := hdelimiter hfirst (congrArg Prod.fst hk) hc
      exact ⟨passed, [c], text, hsource, .unclosedGroup ht⟩

end SourceTree

/-- **Every failure is underlined where it is at fault.** Whatever keeps a source from making a tree is
a fault of the source. Its span starts at the exact place of what is to blame and stays on that line.
A report of it with the same source prints the whole line, and below it carets: they stand below what is
to blame, one below each of its characters, and so end within the line. Where painted text is seen as
the text itself, readers see them there too. -/
theorem failures_are_underlined {source : List Char} {failure : Failure}
    (h : SourceTree.ofText? source = .error failure) :
    ∃ (passed mark text line : List Char) (span : Span),
      source = passed ++ mark ++ text ∧ failure.Blames source passed mark ∧ mark ≠ [] ∧
      failure.diagnostic = ⟨.parse, failure.message, some span⟩ ∧
      span.start = Pos.behind passed ∧ span.stop.line = span.start.line ∧
      IsOnLine source passed.length line span.start.column ∧
      let number := toString (span.start.line + 1)
      Underlines number line span.start.column mark ∧
      (∀ (paint : Painter) (path : String),
        Report.render paint (some path) (some source) failure.diagnostic =
          paint (.heavyIn .red) "parse error:" ++ " " ++ paint .heavy failure.message ++ "\n" ++
            (String.ofList (List.replicate number.length ' ') ++ paint .heavy "-->" ++ " " ++ path ++
              ":" ++ number ++ ":" ++ toString (span.start.column + 1) ++ "\n" ++
            (String.ofList (List.replicate (number.length + 1) ' ') ++ paint .heavy "|" ++ "\n" ++
              printedLine paint number line ++ "\n" ++
              printedCarets paint number span.start.column mark.length ++ "\n")) ++ "\n") ∧
      ∀ (paint : Painter) (seen : String → String) (rest : String), paint.SeenBy seen →
        seen (printedLine paint number line ++ rest) =
            number ++ " | " ++ seen (String.ofList line ++ rest) ∧
          seen (printedCarets paint number span.start.column mark.length ++ rest) =
            printedCarets .plain number span.start.column mark.length ++ seen rest := by
  obtain ⟨passed, mark, text, hsource, hblames⟩ := SourceTree.exists_blames h
  obtain ⟨hmark, hplain⟩ := hblames.mark_plain
  obtain ⟨span, hdiagnostic, hstart, hstop, hwidth⟩ := hblames.exists_span
  obtain ⟨line, hfound, hon, hfits⟩ :=
    Excerpt.ofSource?_of_mark text hmark hplain hstart hstop hwidth
  have hmarked := hon.take_drop hfits
  rw [← hsource] at hfound hon
  refine ⟨passed, mark, text, line, span, hsource, hblames, hmark, hdiagnostic, hstart, hstop, hon,
    underlines_of_marked _ hfits hmarked, fun paint path => ?_, fun paint seen rest hseen => ?_⟩
  · rw [hdiagnostic, Report.render_of_line paint path hfound]
    rfl
  · exact ⟨hseen.printedLine (escape_not_mem_toString _) line rest, hseen.printedCarets _ _ _ rest⟩

/-- Behind a character of two bytes and a line break of two characters, the outer of two comments in an
interpolation is at fault, not the inner one, nor the interpolation. Where nothing is painted, all that
is printed is seen. -/
theorem failures_are_underlined_comment :
    ∃ failure passed mark line, SourceTree.ofText? "é\r\n\"a\\(/* /* */".toList = .error failure ∧
      failure.span? = some ⟨⟨1, 4, 8⟩, ⟨1, 6, 10⟩⟩ ∧
      failure.Blames "é\r\n\"a\\(/* /* */".toList passed mark ∧
      Underlines "2" line 4 mark ∧
      id (printedCarets .plain "2" 4 mark.length ++ "\n") =
        printedCarets .plain "2" 4 mark.length ++ "\n" := by
  have hspan : (match SourceTree.ofText? "é\r\n\"a\\(/* /* */".toList with
      | .ok _ => none
      | .error failure => failure.span?) = some ⟨⟨1, 4, 8⟩, ⟨1, 6, 10⟩⟩ := by
    decide +kernel
  cases htree : SourceTree.ofText? "é\r\n\"a\\(/* /* */".toList with
  | ok tree =>
    rw [htree] at hspan
    cases hspan
  | error failure =>
    rw [htree] at hspan
    obtain ⟨passed, mark, text, line, span, -, hblames, -, hdiagnostic, -, -, -, hunderlines, -, hseen⟩ :=
      failures_are_underlined htree
    have hfound : failure.span? = some span := congrArg Diagnostic.span hdiagnostic
    obtain rfl := Option.some.inj (hfound.symm.trans hspan)
    exact ⟨failure, passed, mark, line, rfl, hspan, hblames, hunderlines,
      (hseen .plain id "\n" Painter.plain_seenBy).2⟩

end SwiftColoring
