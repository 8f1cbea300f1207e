import SwiftColoring.Proofs.Calls
import Mathlib.Data.List.Infix

/-!
# String literals are well formed

No table says which tokens may stand in a string literal. The order of the tokens comes from the
stack of contexts alone, which is pushed, changed and popped in different branches of the search
for a lexeme. This module writes the order down as a grammar and shows that every token stream is
generated by it, however deep literals and interpolations nest.

* `IsCode`, `IsLiteral`, `IsLiteralBody`, `IsFile` — the grammar.
* `Reading` — the tokens read so far, cut up by the contexts that they lead to. This is the
  invariant.
* `Lexer.HasRead.step` — one call keeps it.
* `string_literals_well_formed` — so the tokens of a source are generated by the grammar.
-/

namespace SwiftColoring

-- ---------------------------------------------------------------------------
-- The grammar
-- ---------------------------------------------------------------------------

/-- Only literals have tokens of the other kinds, apart from the end of the source. -/
def Kind.isPlain : Kind → Bool
  | .quote | .multilineQuote | .stringSegment | .interpolationEnd | .eof => false
  | _ => true

def Token.HasNoTrivia (t : Token) : Prop := t.leading = [] ∧ t.trailing = []

def kindCount (kind : Kind) (ts : List Token) : Nat := ts.countP (·.kind == kind)

/-- Of the parentheses of the tokens, so many are still open, and none is closed before it is
opened. -/
structure ParensOpen (depth : Nat) (ts : List Token) : Prop where
  closed_le : ∀ first, first <+: ts → kindCount .rightParen first ≤ kindCount .leftParen first
  opened_eq : kindCount .leftParen ts = kindCount .rightParen ts + depth

mutual

/-- Code; the second list holds those of its tokens that are not inside a literal. -/
inductive IsCode : List Token → List Token → Prop where
  | nil : IsCode [] []
  | plain {ts own : List Token} {t : Token} (hcode : IsCode ts own) (hplain : t.kind.isPlain = true) :
      IsCode (ts ++ [t]) (own ++ [t])
  | literal {ts own us : List Token} (hcode : IsCode ts own) (hliteral : IsLiteral us) :
      IsCode (ts ++ us) own

/-- A literal between two quotes of one kind. -/
inductive IsLiteral : List Token → Prop where
  | quoted {opening closing : Token} {body : List Token} {multiline hasText : Bool}
      (hopening : opening.kind = Lexer.quoteKind multiline) (htrailing : opening.trailing = [])
      (hbody : IsLiteralBody hasText body)
      (hclosing : closing.kind = Lexer.quoteKind multiline) (hleading : closing.leading = []) :
      IsLiteral (opening :: body ++ [closing])

/-- What stands between the quotes; the flag says whether a segment comes last, because no other
one may follow it then. -/
inductive IsLiteralBody : Bool → List Token → Prop where
  | nil : IsLiteralBody false []
  | segment {body : List Token} {t : Token} (hbody : IsLiteralBody false body)
      (hkind : t.kind = .stringSegment) (hnone : t.HasNoTrivia) : IsLiteralBody true (body ++ [t])
  | interpolation {body inner own : List Token} {backslash paren anchor : Token} {hasText : Bool}
      (hbody : IsLiteralBody hasText body)
      (hbackslash : backslash.kind = .backslash) (hnone : backslash.HasNoTrivia)
      (hparen : paren.kind = .leftParen) (hleading : paren.leading = [])
      (hinner : IsCode inner own) (hbalanced : ParensOpen 0 own)
      (hanchor : anchor.kind = .interpolationEnd) (htrailing : anchor.trailing = []) :
      IsLiteralBody false (body ++ (backslash :: paren :: inner ++ [anchor]))

end

/-- The tokens of a whole source: code and the token that ends it. -/
def IsFile (ts : List Token) : Prop :=
  ∃ code own eof, ts = code ++ [eof] ∧ IsCode code own ∧ eof.kind = .eof

-- ---------------------------------------------------------------------------
-- Open parentheses
-- ---------------------------------------------------------------------------

theorem ParensOpen.nil : ParensOpen 0 [] where
  closed_le first hfirst := by rw [List.prefix_nil.mp hfirst]; exact Nat.le_refl _
  opened_eq := rfl

theorem kindCount_append (kind : Kind) (ts us : List Token) :
    kindCount kind (ts ++ us) = kindCount kind ts + kindCount kind us := List.countP_append

/-- None of the tokens closes more than those before it have opened, if this holds without the last
one and of all of them. -/
theorem closed_le_concat {opening closing : Kind} {ts : List Token} {t : Token}
    (h : ∀ first, first <+: ts → kindCount closing first ≤ kindCount opening first)
    (hall : kindCount closing (ts ++ [t]) ≤ kindCount opening (ts ++ [t])) :
    ∀ first, first <+: ts ++ [t] → kindCount closing first ≤ kindCount opening first := by
  intro first hfirst
  -- what a longer list starts with is what the shorter one starts with, or all of it
  rcases List.prefix_concat_iff.mp hfirst with rfl | hfirst
  · exact hall
  · exact h first hfirst

/-- One more token moves the number of open parentheses by what it is itself. -/
theorem ParensOpen.concat {depth depth' : Nat} {ts : List Token} {t : Token} (h : ParensOpen depth ts)
    (ht : kindCount .leftParen [t] + depth = kindCount .rightParen [t] + depth') :
    ParensOpen depth' (ts ++ [t]) := by
  have hopened := h.opened_eq
  refine ⟨closed_le_concat h.closed_le ?_, ?_⟩
  all_goals
    rw [kindCount_append, kindCount_append]
    omega

theorem kindCount_singleton (kind : Kind) (t : Token) :
    kindCount kind [t] = if t.kind = kind then 1 else 0 := by
  simp [kindCount, List.countP_cons]

-- ---------------------------------------------------------------------------
-- The text of a literal
-- ---------------------------------------------------------------------------

/-- Where the text of a literal stops, its quote or an interpolation starts. -/
theorem StringText.extent_stop {multiline : Bool} {text : List Char}
    (h : (extent multiline text).closed = true) :
    startsWithQuote multiline (text.drop (extent multiline text).length) = true ∨
      startsInterpolation (text.drop (extent multiline text).length) = true := by
  fun_induction extent multiline text with
  | case1 | case2 | case4 | case7 => cases h
  | case3 c rest hc =>
    obtain rfl := eq_of_beq hc
    exact .inr rfl
  | case5 c rest hc hbreak ih =>
    -- an escape takes two characters
    exact ih h
  | case6 c rest _ _ hquote => exact .inl hquote
  | case8 c rest _ _ _ _ ih => exact ih h

-- ---------------------------------------------------------------------------
-- The invariant
-- ---------------------------------------------------------------------------

/-- The tokens read so far, by the contexts that they lead to. The flag says whether they end in a
segment of the literal that is being read. -/
inductive Reading : List Context → Bool → List Token → Prop where
  | code {ts own : List Token} (hcode : IsCode ts own) : Reading [.code] false ts
  | string {outer : List Context} {ts body : List Token} {opening : Token} {multiline hasText : Bool}
      {start : Pos} (houter : Reading outer false ts)
      (houterCode : (Context.innermost outer).isCode = true)
      (hopening : opening.kind = Lexer.quoteKind multiline) (htrailing : opening.trailing = [])
      (hstart : opening.span.start = start) (hbody : IsLiteralBody hasText body) :
      Reading (.string multiline start :: outer) hasText (ts ++ opening :: body)
  | interpolationStart {outer : List Context} {ts : List Token} {backslash : Token}
      {multiline hasText : Bool} {start : Pos}
      (hliteral : Reading (.string multiline start :: outer) hasText ts)
      (hbackslash : backslash.kind = .backslash) (hnone : backslash.HasNoTrivia) :
      Reading (.interpolationStart start :: .string multiline start :: outer) false (ts ++ [backslash])
  | interpolation {outer : List Context} {ts inner own : List Token} {paren : Token} {depth : Nat}
      {start : Pos} (hstart : Reading (.interpolationStart start :: outer) false ts)
      (hparen : paren.kind = .leftParen) (hleading : paren.leading = [])
      (hinner : IsCode inner own) (hopen : ParensOpen depth own) :
      Reading (.interpolation depth start :: outer) false (ts ++ paren :: inner)

namespace Reading

variable {contexts : List Context} {hasText : Bool} {ts : List Token} {t : Token}

/-- A token of code moves the depth of the interpolation it stands in, if any, by the parenthesis
that it is, if it is one. -/
theorem codeToken {contexts' : List Context} (h : Reading contexts hasText ts)
    (hcode : (Context.innermost contexts).isCode = true) (hplain : t.kind.isPlain = true)
    (hbottom : contexts = [.code] → contexts' = [.code])
    (hdepth : ∀ depth start outer, contexts = .interpolation depth start :: outer →
      ∃ depth', contexts' = .interpolation depth' start :: outer ∧
        kindCount .leftParen [t] + depth = kindCount .rightParen [t] + depth') :
    Reading contexts' false (ts ++ [t]) := by
  cases h with
  | code hread =>
    rw [hbottom rfl]
    exact .code (.plain hread hplain)
  | string | interpolationStart => cases hcode
  | interpolation hstart hparen hleading hinner hopen =>
    obtain ⟨depth', rfl, hcount⟩ := hdepth _ _ _ rfl
    rw [List.append_assoc, List.cons_append]
    exact .interpolation hstart hparen hleading (.plain hinner hplain) (hopen.concat hcount)

theorem plain (h : Reading contexts hasText ts) (hcode : (Context.innermost contexts).isCode = true)
    (hplain : t.kind.isPlain = true) (hleft : t.kind ≠ .leftParen) (hright : t.kind ≠ .rightParen) :
    Reading contexts false (ts ++ [t]) := by
  refine h.codeToken hcode hplain id fun depth start outer hcontexts => ⟨depth, hcontexts, ?_⟩
  rw [kindCount_singleton, kindCount_singleton, if_neg hleft, if_neg hright]

theorem leftParen (h : Reading contexts hasText ts)
    (hcode : (Context.innermost contexts).isCode = true) (hkind : t.kind = .leftParen) :
    Reading (Context.enterParen contexts) false (ts ++ [t]) := by
  refine h.codeToken hcode (by rw [hkind]; rfl) ?_ ?_
  · rintro rfl
    rfl
  · rintro depth start outer rfl
    refine ⟨depth + 1, rfl, ?_⟩
    rw [kindCount_singleton, kindCount_singleton, hkind, if_pos rfl, if_neg (by decide)]
    omega

theorem rightParen (h : Reading contexts hasText ts)
    (hcode : (Context.innermost contexts).isCode = true)
    (hends : (Context.innermost contexts).endsInterpolation = false) (hkind : t.kind = .rightParen) :
    Reading (Context.leaveParen contexts) false (ts ++ [t]) := by
  refine h.codeToken hcode (by rw [hkind]; rfl) ?_ ?_
  · rintro rfl
    rfl
  · rintro depth start outer rfl
    cases depth with
    | zero =>
      -- this parenthesis would be the end of the interpolation
      cases hends
    | succ depth =>
      refine ⟨depth, rfl, ?_⟩
      rw [kindCount_singleton, kindCount_singleton, hkind, if_pos rfl, if_neg (by decide)]
      omega

/-- A whole literal may follow wherever code may. -/
theorem literal {us : List Token} (h : Reading contexts hasText ts)
    (hcode : (Context.innermost contexts).isCode = true) (hliteral : IsLiteral us) :
    Reading contexts false (ts ++ us) := by
  cases h with
  | code hread => exact .code (.literal hread hliteral)
  | string | interpolationStart => cases hcode
  | interpolation hstart hparen hleading hinner hopen =>
    rw [List.append_assoc, List.cons_append]
    exact .interpolation hstart hparen hleading (.literal hinner hliteral) hopen

/-- A literal that has just been opened has no text yet, and its place is that of its quote. -/
theorem openingQuote {multiline : Bool} {start : Pos} (h : Reading contexts hasText ts)
    (hcode : (Context.innermost contexts).isCode = true) (hkind : t.kind = Lexer.quoteKind multiline)
    (htrailing : t.trailing = []) (hstart : t.span.start = start) :
    Reading (.string multiline start :: contexts) false (ts ++ [t]) := by
  -- in code the flag is down
  have hflag : hasText = false := by
    cases h with
    | string => cases hcode
    | code | interpolationStart | interpolation => rfl
  rw [hflag] at h
  exact .string h hcode hkind htrailing hstart .nil

theorem closingQuote {multiline : Bool} {start : Pos} (h : Reading contexts hasText ts)
    (hcontext : Context.innermost contexts = .string multiline start)
    (hkind : t.kind = Lexer.quoteKind multiline) (hleading : t.leading = []) :
    Reading contexts.tail false (ts ++ [t]) := by
  cases h with
  | code | interpolationStart | interpolation => cases hcontext
  | @string outer ts body opening _ _ _ houter hcode hopening htrailing hstart hbody =>
    obtain ⟨rfl, -⟩ := Context.string.inj hcontext
    -- what was read from the opening quote on is a whole literal now, and the code around it goes on
    rw [List.append_assoc]
    exact houter.literal hcode (.quoted hopening htrailing hbody hkind hleading)

theorem segment {multiline : Bool} {start : Pos} (h : Reading contexts false ts)
    (hcontext : Context.innermost contexts = .string multiline start)
    (hkind : t.kind = .stringSegment) (hnone : t.HasNoTrivia) :
    Reading contexts true (ts ++ [t]) := by
  cases h with
  | code | interpolationStart | interpolation => cases hcontext
  | string houter hcode hopening htrailing hstart hbody =>
    rw [List.append_assoc, List.cons_append]
    exact .string houter hcode hopening htrailing hstart (.segment hbody hkind hnone)

theorem backslash {multiline : Bool} {start : Pos} (h : Reading contexts hasText ts)
    (hcontext : Context.innermost contexts = .string multiline start)
    (hkind : t.kind = .backslash) (hnone : t.HasNoTrivia) :
    Reading (.interpolationStart start :: contexts) false (ts ++ [t]) := by
  cases h with
  | code | interpolationStart | interpolation => cases hcontext
  | string houter hcode hopening htrailing hstart hbody =>
    obtain ⟨-, rfl⟩ := Context.string.inj hcontext
    exact .interpolationStart (.string houter hcode hopening htrailing hstart hbody) hkind hnone

theorem interpolationParen {start : Pos} (h : Reading contexts hasText ts)
    (hcontext : Context.innermost contexts = .interpolationStart start)
    (hkind : t.kind = .leftParen) (hleading : t.leading = []) :
    Reading (.interpolation 0 start :: contexts.tail) false (ts ++ [t]) := by
  cases h with
  | code | string | interpolation => cases hcontext
  | interpolationStart hliteral hbackslash hnone =>
    obtain rfl := Context.interpolationStart.inj hcontext
    -- nothing is inside yet, so that nothing is open
    exact .interpolation (.interpolationStart hliteral hbackslash hnone) hkind hleading .nil .nil

theorem interpolationEnd {start : Pos} (h : Reading contexts hasText ts)
    (hcontext : Context.innermost contexts = .interpolation 0 start)
    (hkind : t.kind = .interpolationEnd)
    (htrailing : (Context.innermost contexts.tail).isCode = false → t.trailing = []) :
    Reading contexts.tail false (ts ++ [t]) := by
  cases h with
  | code | string | interpolationStart => cases hcontext
  | interpolation hstart hparen hparenLeading hinner hopen =>
    obtain ⟨rfl, rfl⟩ := Context.interpolation.inj hcontext
    -- below an interpolation stands its start, and below that the literal it belongs to
    cases hstart with
    | interpolationStart hliteral hbackslash hnone =>
      cases hliteral with
      | string houter hcode hopening hquoteTrailing hquote hbody =>
        -- the interpolation is complete and joins the body; no segment is behind it yet
        have hbody' := IsLiteralBody.interpolation hbody hbackslash hnone hparen hparenLeading hinner
          hopen hkind (htrailing rfl)
        simp only [List.append_assoc, List.cons_append, List.nil_append] at hbody' ⊢
        exact .string houter hcode hopening hquoteTrailing hquote hbody'

/-- Where plain code ends, the tokens read are code. -/
theorem exists_code (h : Reading contexts hasText ts) (hcontext : Context.innermost contexts = .code) :
    ∃ own, IsCode ts own := by
  cases h with
  | code hcode => exact ⟨_, hcode⟩
  | string | interpolationStart | interpolation => cases hcontext

end Reading

-- ---------------------------------------------------------------------------
-- The run
-- ---------------------------------------------------------------------------

namespace Lexer

/-- The text of the literal that is being read does not go on. -/
def AtTextEnd (l : Lexer) : Prop :=
  ∀ multiline start, l.context = .string multiline start →
    StringText.startsWithQuote multiline l.rest = true ∨ StringText.startsInterpolation l.rest = true

/-- The tokens lead to the contexts of the lexer, and no segment is left behind another. -/
def HasRead (l : Lexer) (ts : List Token) : Prop :=
  ∃ hasText, Reading l.contexts hasText ts ∧ (hasText = true → l.AtTextEnd)

theorem hasRead_of_reading {l : Lexer} {ts : List Token} (h : Reading l.contexts false ts) :
    l.HasRead ts :=
  ⟨false, h, fun hflag => by cases hflag⟩

theorem isPlain_of_isOrdinary {kind : Kind} (h : kind.isOrdinary = true) :
    kind.isPlain = true ∧ kind ≠ .leftParen ∧ kind ≠ .rightParen := by
  refine ⟨?_, ?_, ?_⟩
  · cases kind <;> first | rfl | cases h
  · rintro rfl
    cases h
  · rintro rfl
    cases h

/-- Behind a segment the same literal goes on, at the place where the extent of its text ends. -/
theorem atTextEnd_of_segment {l behind here : Lexer} {t : Token} {multiline : Bool} {start : Pos}
    (hcut : Cut l t behind here
      (here.plain .stringSegment (StringText.extent multiline here.rest).length))
    (hcontext : here.context = .string multiline start)
    (hclosed : (StringText.extent multiline here.rest).closed = true) (htrailing : t.trailing = []) :
    behind.AtTextEnd := by
  intro multiline' start' hcontext'
  have hbehind : behind.context = here.context := by
    unfold context
    rw [hcut.behind_contexts]
    rfl
  rw [hbehind, hcontext] at hcontext'
  obtain ⟨rfl, -⟩ := Context.string.inj hcontext'
  rw [hcut.rest_of_trailing htrailing]
  exact StringText.extent_stop hclosed

/-- A call that hands out a token other than the end of the source keeps the invariant. -/
theorem HasRead.step {l behind here : Lexer} {ts : List Token} {t : Token} {x : Lexeme}
    (h : l.HasRead ts) (hcut : Cut l t behind here x) (hkind : t.kind ≠ .eof) :
    behind.HasRead (ts ++ [t]) := by
  obtain ⟨hasText, hreading, hend⟩ := h
  -- the trivia before the lexeme leaves the contexts alone
  rw [← hcut.here_contexts] at hreading
  have hx : t.kind = x.kind := hcut.kind_eq
  have hleading : here.context.isCode = false → t.leading = [] := by
    rw [hcut.here_context]
    exact hcut.leading_nil
  have htrailing : (Context.innermost x.contexts).isCode = false → t.trailing = [] :=
    hcut.trailing_nil
  -- only a segment leaves the flag up
  have hdone : Reading x.contexts false (ts ++ [t]) → behind.HasRead (ts ++ [t]) := by
    intro hread
    rw [← hcut.behind_contexts] at hread
    exact hasRead_of_reading hread
  cases lexeme_cases hcut.lexeme_eq with
  | closingQuote hcontext hquote =>
    exact hdone (hreading.closingQuote hcontext hx (hleading (by rw [hcontext]; rfl)))
  | backslash hcontext hopen =>
    exact hdone (hreading.backslash hcontext hx ⟨hleading (by rw [hcontext]; rfl), htrailing rfl⟩)
  | interpolationParen hcontext =>
    exact hdone (hreading.interpolationParen hcontext hx (hleading (by rw [hcontext]; rfl)))
  | eof =>
    -- excluded: the end of the source is not counted among what has been read
    exact absurd hx hkind
  | leftParen hcode hrest => exact hdone (hreading.leftParen hcode hx)
  | interpolationEnd hcontext hrest => exact hdone (hreading.interpolationEnd hcontext hx htrailing)
  | rightParen hcode hends hrest => exact hdone (hreading.rightParen hcode hends hx)
  | openingQuote hcode hrest => exact hdone (hreading.openingQuote hcode hx (htrailing rfl) (by rw [hcut.span_eq]))
  | ordinary hcode hrest hordinary =>
    have hkind' : t.kind.isOrdinary = true := by rw [hx]; exact hordinary
    obtain ⟨hplain, hleft, hright⟩ := isPlain_of_isOrdinary hkind'
    exact hdone (hreading.plain hcode hplain hleft hright)
  | unknown => exact absurd hx hcut.kind_ne_unknown
  | @segment multiline start hcontext hquote hopen hclosed =>
    have htrailing' : t.trailing = [] := by
      refine htrailing ?_
      show here.context.isCode = false
      rw [hcontext]
      rfl
    have hnone : t.HasNoTrivia := ⟨hleading (by rw [hcontext]; rfl), htrailing'⟩
    -- text cannot go on where the text before it stopped
    have hflag : hasText = false := by
      refine Bool.eq_false_iff.mpr fun hflag => ?_
      have hrest : l.rest = here.rest := hcut.rest_of_leading hnone.1
      rcases hend hflag multiline start (by rw [← hcut.here_context, hcontext]) with hstop | hstop
      · rw [hrest, hquote] at hstop
        cases hstop
      · rw [hrest, hopen] at hstop
        cases hstop
    rw [hflag] at hreading
    have hread := hreading.segment hcontext hx hnone
    exact ⟨true, by rw [hcut.behind_contexts]; exact hread,
      fun _ => atTextEnd_of_segment hcut hcontext hclosed htrailing'⟩

theorem Reads.hasRead {source : List Char} {m : Lexer} {ts : List Token}
    (h : (ofText source).Reads ts m) : m.HasRead ts := by
  induction h with
  | nil => exact hasRead_of_reading (.code .nil)
  | snoc _ hnext hkind ih =>
    obtain ⟨here, x, hcut⟩ := next_cut hnext
    exact ih.step hcut hkind

end Lexer

/-- **Every token stream has well-formed string literals.** The tokens of a source are code and
the end of the source. Code is made of plain tokens and literals. A literal stands between two
quotes of one kind and holds segments and interpolations, no two segments in a row; the code of an
interpolation has parentheses of its own that balance, so that its end is not taken for one of
them. No trivia stands inside the text of a literal. -/
theorem string_literals_well_formed {source : List Char} {ts : List Token} (h : tokens source = .ok ts) :
    IsFile ts := by
  obtain ⟨init, eof, m, behind, rfl, hreads, hnext, hkind⟩ := Lexer.exists_reads_of_tokens h
  obtain ⟨hasText, hreading, -⟩ := hreads.hasRead
  obtain ⟨here, x, hcut⟩ := Lexer.next_cut hnext
  -- the end of the source is handed out in plain code only
  have hcontext : m.context = .code := by
    rw [← hcut.here_context]
    exact (Lexer.at_end_of_kind_eof hcut.lexeme_eq (hcut.kind_eq.symm.trans hkind)).1
  obtain ⟨own, hcode⟩ := hreading.exists_code hcontext
  exact ⟨init, own, eof, rfl, hcode, hkind⟩

/-- A literal in the code of an interpolation, between parentheses that do not end it. -/
theorem string_literals_well_formed_nested :
    ∃ ts, tokens "\"a\\(f(\"b\"))\"".toList = .ok ts ∧ IsFile ts ∧
      ts.map Token.kind = [.quote, .stringSegment, .backslash, .leftParen, .identifier, .leftParen, .quote,
        .stringSegment, .quote, .rightParen, .interpolationEnd, .quote, .eof] := by
  have hkinds : (tokens "\"a\\(f(\"b\"))\"".toList).toOption.map (List.map Token.kind) =
      some [.quote, .stringSegment, .backslash, .leftParen, .identifier, .leftParen, .quote,
        .stringSegment, .quote, .rightParen, .interpolationEnd, .quote, .eof] := by
    decide +kernel
  obtain ⟨ts, hts, hkinds⟩ := exists_ok_of_toOption_map hkinds
  exact ⟨ts, hts, string_literals_well_formed hts, hkinds⟩

end SwiftColoring
