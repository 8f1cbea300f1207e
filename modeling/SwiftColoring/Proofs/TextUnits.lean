import SwiftColoring.Proofs.Interpolated
import SwiftColoring.Proofs.Progress

/-!
# The text of a literal is made of units

The text of a literal is characters that stand for themselves and escapes, which are a backslash and the
character behind it. What is a unit depends on how the literal was opened: one on a single line holds no
bare quote and no line break, and one of several lines holds quotes as long as no three of them meet. The
search for the end of the text passes all units and stops at the first place that starts none, so a
segment is what the units reach, up to the closing quote or an interpolation.

* `StringText.IsUnits` — the grammar of text.
* `StringText.extent_of_isUnits` — the search passes text of the grammar.
* `StringText.isUnits_of_closed` — what it passes is text of the grammar.
* `openFrames`, `Lexer.Reads.frames_eq` — which literal is open shows in the tokens before.
* `string_text_is_made_of_units` — the whole statement.
-/

namespace SwiftColoring

namespace StringText

-- ---------------------------------------------------------------------------
-- The grammar
-- ---------------------------------------------------------------------------

/-- The characters of a quote. -/
def quote (multiline : Bool) : List Char := List.replicate (quoteLength multiline) '"'

theorem length_quote (multiline : Bool) : (quote multiline).length = quoteLength multiline :=
  List.length_replicate

theorem take_quote {multiline : Bool} (text : List Char) :
    (quote multiline ++ text).take (quoteLength multiline) = quote multiline := by
  rw [← length_quote, List.take_left]

theorem drop_quote {multiline : Bool} (text : List Char) :
    (quote multiline ++ text).drop (quoteLength multiline) = text := by
  rw [← length_quote, List.drop_left]

/-- The character stands for itself, with so much of the source behind it. -/
def IsBare (multiline : Bool) (c : Char) (behind : List Char) : Prop :=
  match multiline with
  | false => c ≠ '"' ∧ c ≠ '\\' ∧ c ≠ '\n' ∧ c ≠ '\r'
  | true => c ≠ '\\' ∧ ¬ ['"', '"', '"'] <+: c :: behind

/-- A backslash takes the character with it. -/
def IsEscaped (multiline : Bool) (c : Char) : Prop :=
  match multiline with
  | false => c ≠ '(' ∧ c ≠ '\n' ∧ c ≠ '\r'
  | true => c ≠ '('

/-- The text is made of units, with so much of the source behind it. -/
inductive IsUnits (multiline : Bool) (behind : List Char) : List Char → Prop where
  | nil : IsUnits multiline behind []
  | bare {c : Char} {text : List Char} (hc : IsBare multiline c (text ++ behind))
      (htext : IsUnits multiline behind text) : IsUnits multiline behind (c :: text)
  | escape {c : Char} {text : List Char} (hc : IsEscaped multiline c)
      (htext : IsUnits multiline behind text) : IsUnits multiline behind ('\\' :: c :: text)

variable {multiline : Bool} {c : Char} {text behind : List Char}

/-- The text of a literal does not go on here. -/
def IsStop (multiline : Bool) (behind : List Char) : Prop :=
  startsWithQuote multiline behind = true ∨ startsInterpolation behind = true

theorem isBare_iff : IsBare multiline c behind ↔
    c ≠ '\\' ∧ startsWithQuote multiline (c :: behind) = false ∧ (!multiline && isLineBreak c) = false := by
  cases multiline with
  | false =>
    have hquote : startsWithQuote false (c :: behind) = (c == '"') := by
      rw [Bool.eq_iff_iff, startsWithQuote, List.isPrefixOf_iff_prefix, beq_iff_eq]
      simp [quoteLength, List.cons_prefix_cons, eq_comm]
    rw [hquote]
    simp [IsBare, isLineBreak, and_left_comm]
  | true =>
    rw [← Bool.not_eq_true, startsWithQuote, List.isPrefixOf_iff_prefix]
    simp [IsBare, quoteLength, List.replicate]

theorem isEscaped_iff : IsEscaped multiline c ↔
    (c == '(') = false ∧ (!multiline && isLineBreak c) = false := by
  cases multiline <;> simp [IsEscaped, isLineBreak]

-- ---------------------------------------------------------------------------
-- The search passes text of the grammar
-- ---------------------------------------------------------------------------

/-- Where the text stops, the search finds nothing more. -/
theorem extent_of_isStop (h : IsStop multiline behind) : extent multiline behind = ⟨0, true⟩ := by
  rcases h with hquote | hopen
  · cases behind with
    | nil => cases multiline <;> cases hquote
    | cons c rest =>
      have hc : c ≠ '\\' := by
        rintro rfl
        cases multiline <;> cases hquote
      rw [extent_of_plain hc, if_pos hquote]
  · rw [startsInterpolation_eq] at hopen
    obtain ⟨rest, rfl⟩ := List.isPrefixOf_iff_prefix.mp hopen
    rfl

theorem extent_of_isBare (hc : IsBare multiline c behind) :
    extent multiline (c :: behind) = (extent multiline behind).behind 1 := by
  obtain ⟨hescape, hquote, hbreak⟩ := isBare_iff.mp hc
  rw [extent_of_plain hescape, hquote, hbreak]
  rfl

theorem extent_of_isEscaped (hc : IsEscaped multiline c) (behind : List Char) :
    extent multiline ('\\' :: c :: behind) = (extent multiline behind).behind 2 := by
  obtain ⟨hopen, hbreak⟩ := isEscaped_iff.mp hc
  rw [extent, hopen, hbreak]
  rfl

/-- The search passes all units. -/
theorem extent_of_isUnits (h : IsUnits multiline behind text) (hstop : IsStop multiline behind) :
    extent multiline (text ++ behind) = ⟨text.length, true⟩ := by
  induction h with
  | nil => exact extent_of_isStop hstop
  | bare hc _ ih =>
    rw [List.cons_append, extent_of_isBare hc, ih]
    rfl
  | escape hc _ ih =>
    rw [List.cons_append, List.cons_append, extent_of_isEscaped hc, ih]
    rfl

/-- Text of the grammar starts neither with the closing quote nor with an interpolation. -/
theorem not_isStop_of_isUnits (h : IsUnits multiline behind text) (hstop : IsStop multiline behind)
    (hne : text ≠ []) : ¬ IsStop multiline (text ++ behind) := by
  intro hstop'
  have hextent := extent_of_isStop hstop'
  rw [extent_of_isUnits h hstop] at hextent
  exact hne (List.length_eq_zero_iff.mp (congrArg Extent.length hextent))

-- ---------------------------------------------------------------------------
-- What the search passes is text of the grammar
-- ---------------------------------------------------------------------------

/-- What the search passes before it finds an end is made of units. -/
theorem isUnits_of_closed (h : (extent multiline text).closed = true) :
    IsUnits multiline (text.drop (extent multiline text).length)
      (text.take (extent multiline text).length) := by
  fun_induction extent multiline text with
  | case1 | case2 | case4 | case7 => cases h
  | case3 | case6 => exact .nil
  | case5 c rest hc hbreak ih =>
    -- an escape takes two characters
    exact .escape (isEscaped_iff.mpr ⟨Bool.eq_false_iff.mpr hc, Bool.eq_false_iff.mpr hbreak⟩) (ih h)
  | case8 c rest hlast hescape hquote hbreak ih =>
    have hbackslash : c ≠ '\\' := by
      intro hc
      cases rest with
      | nil => exact hlast hc rfl
      | cons d rest => exact hescape d rest hc rfl
    refine .bare ?_ (ih h)
    show IsBare multiline c (rest.take _ ++ rest.drop _)
    rw [List.take_append_drop]
    exact isBare_iff.mpr ⟨hbackslash, Bool.eq_false_iff.mpr hquote, Bool.eq_false_iff.mpr hbreak⟩

end StringText

-- ---------------------------------------------------------------------------
-- Which literal is open
-- ---------------------------------------------------------------------------

/-- What is open around a token: a literal, or an interpolation of one. -/
inductive Frame where
  | literal (multiline : Bool)
  | interpolation
  deriving DecidableEq, Repr

/-- What is open behind a token of the kind. In the text of a literal a quote closes it, and a backslash
starts an interpolation; in code a quote opens a literal. -/
def Frame.behind (kind : Kind) : List Frame → List Frame
  | .literal multiline :: outer =>
    match kind with
    | .quote | .multilineQuote => outer
    | .backslash => .interpolation :: .literal multiline :: outer
    | _ => .literal multiline :: outer
  | frames =>
    match kind with
    | .quote => .literal false :: frames
    | .multilineQuote => .literal true :: frames
    | .interpolationEnd => frames.tail
    | _ => frames

/-- What the tokens leave open, innermost first. -/
def openFrames (ts : List Token) : List Frame :=
  ts.foldl (fun frames t => Frame.behind t.kind frames) []

/-- What the contexts say is open; plain code is at the bottom. -/
def Context.frames : List Context → List Frame
  | .string multiline _ :: outer => .literal multiline :: frames outer
  | .interpolationStart _ :: outer | .interpolation .. :: outer => .interpolation :: frames outer
  | _ => []

/-- A token that is awaited, or that ends what is open, stands where it is. -/
theorem Context.frames_behind {kind : Kind} {contexts : List Context} (pos : Pos)
    (hstart : ∀ opening, innermost contexts = .interpolationStart opening → kind = .leftParen)
    (hend : kind = .interpolationEnd → innermost contexts ≠ .code) :
    frames (behind kind pos contexts) = Frame.behind kind (frames contexts) := by
  match contexts with
  | [] | .code :: _ => cases kind <;> first | rfl | exact absurd rfl (hend rfl)
  | .string _ _ :: _ => cases kind <;> rfl
  | .interpolationStart opening :: _ =>
    obtain rfl := hstart opening rfl
    rfl
  | .interpolation 0 _ :: _ | .interpolation (_ + 1) _ :: _ => cases kind <;> rfl

namespace Lexer

variable {l m : Lexer} {x : Lexeme} {source : List Char} {ts : List Token}

/-- No interpolation ends in plain code. -/
theorem context_ne_code_of_interpolationEnd (hx : l.lexeme = .ok x) (hkind : x.kind = .interpolationEnd) :
    l.context ≠ .code := by
  intro hcode
  cases lexeme_cases hx with
  | interpolationEnd hcontext =>
    rw [hcode] at hcontext
    cases hcontext
  | closingQuote | openingQuote => exact absurd hkind (quoteKind_ne (by decide) (by decide) _)
  | ordinary _ _ hordinary => exact absurd hkind (Kind.ne_of_isOrdinary hordinary rfl)
  | backslash | segment | interpolationParen | eof | leftParen | rightParen | unknown => cases hkind

/-- A lexeme changes what is open as its kind says. -/
theorem frames_of_lexeme (hx : l.lexeme = .ok x) :
    Context.frames x.contexts = Frame.behind x.kind (Context.frames l.contexts) := by
  rw [contexts_of_lexeme hx]
  refine Context.frames_behind _ (fun opening hcontext => ?_) (context_ne_code_of_interpolationEnd hx)
  unfold lexeme at hx
  rw [show l.context = .interpolationStart opening from hcontext] at hx
  exact congrArg Lexeme.kind (Except.ok.inj hx).symm

/-- What the tokens leave open is what the contexts say. -/
theorem Reads.frames_eq (h : (ofText source).Reads ts m) : Context.frames m.contexts = openFrames ts := by
  induction h with
  | nil => rfl
  | snoc _ hnext _ ih =>
    obtain ⟨here, x, hcut⟩ := next_cut hnext
    rw [openFrames, List.foldl_append, ← openFrames, ← ih, hcut.behind_contexts,
      frames_of_lexeme hcut.lexeme_eq, hcut.here_contexts, ← hcut.kind_eq]
    rfl

-- ---------------------------------------------------------------------------
-- Segments of a source
-- ---------------------------------------------------------------------------

/-- The search for a lexeme that finds text, in the literal that it is text of. -/
theorem exists_literal_of_segment (hx : l.lexeme = .ok x) (hkind : x.kind = .stringSegment) :
    ∃ multiline opening, l.context = .string multiline opening ∧
      StringText.startsWithQuote multiline l.rest = false ∧
      StringText.startsInterpolation l.rest = false ∧
      (StringText.extent multiline l.rest).closed = true ∧
      x = l.plain .stringSegment (StringText.extent multiline l.rest).length := by
  cases lexeme_cases hx with
  | segment hcontext hquote hopen hclosed => exact ⟨_, _, hcontext, hquote, hopen, hclosed, rfl⟩
  | closingQuote | openingQuote => exact absurd hkind (quoteKind_ne (by decide) (by decide) _)
  | ordinary _ _ hordinary => exact absurd hkind (Kind.ne_of_isOrdinary hordinary rfl)
  | backslash | interpolationParen | eof | leftParen | interpolationEnd | rightParen | unknown =>
    cases hkind

/-- Where the closing quote of a literal stands, it is the next token. -/
theorem closing_of_quote {multiline : Bool} {opening : Pos} {t : Token}
    (hcontext : l.context = .string multiline opening)
    (hquote : StringText.startsWithQuote multiline l.rest = true) (hnext : l.next = (.ok t, m)) :
    t.kind = quoteKind multiline ∧ t.text = StringText.quote multiline ∧ t.leading = [] := by
  obtain ⟨here, x, hcut⟩ := next_cut hnext
  have hleading : t.leading = [] := hcut.leading_nil (by rw [hcontext]; rfl)
  have hlexeme := hcut.lexeme_eq
  have hrest : here.rest = l.rest := (hcut.rest_of_leading hleading).symm
  unfold lexeme at hlexeme
  rw [hcut.here_context, hcontext] at hlexeme
  simp only [stringPart, hrest, hquote, if_true] at hlexeme
  obtain rfl := Except.ok.inj hlexeme
  obtain ⟨rest, hsplit⟩ := List.isPrefixOf_iff_prefix.mp hquote
  refine ⟨hcut.kind_eq, ?_, hleading⟩
  rw [hcut.text_eq, hrest, ← hsplit]
  exact StringText.take_quote rest

end Lexer

/-- The token is text of a literal of the sort, with so much of the source behind it, and these tokens. -/
structure Token.IsTextOf (multiline : Bool) (t : Token) (rest : List Char) (behind : List Token) : Prop where
  ne_nil : t.text ≠ []
  units : StringText.IsUnits multiline rest t.text
  /-- An interpolation stands directly behind the text, or the quote that closes the literal. -/
  stop : ['\\', '('] <+: rest ∨ StringText.quote multiline <+: rest ∧ ∃ closing after,
    behind = closing :: after ∧ closing.kind = Lexer.quoteKind multiline ∧
      closing.text = StringText.quote multiline ∧ closing.leading = []

namespace Lexer

variable {l m : Lexer} {source : List Char}

/-- A segment is text of the literal that the tokens before it leave open. -/
theorem isTextOf_of_tokens {before behind : List Token} {t : Token}
    (h : tokens source = .ok (before ++ t :: behind)) (hkind : t.kind = .stringSegment) :
    ∃ multiline outer rest, openFrames before = .literal multiline :: outer ∧
      source = before.flatMap Token.fullText ++ t.text ++ rest ∧ t.IsTextOf multiline rest behind := by
  obtain ⟨next, after, l, m, k, rfl, hreads, hl, hm⟩ := exists_calls_of_tokens h (by rw [hkind]; decide)
  obtain ⟨here, x, hcut⟩ := next_cut hl
  obtain ⟨multiline, opening, hcontext, hquote, hopen, hclosed, rfl⟩ :=
    exists_literal_of_segment hcut.lexeme_eq (hcut.kind_eq.symm.trans hkind)
  have hcontext' : l.context = .string multiline opening := by rw [← hcut.here_context, hcontext]
  have hmcontext : m.context = .string multiline opening := by
    rw [← hcontext]
    unfold context
    rw [hcut.behind_contexts]
    rfl
  -- neither side of the text has trivia
  have hrest : l.rest = here.rest := hcut.rest_of_leading (hcut.leading_nil (by rw [hcontext']; rfl))
  have hbehind : m.rest = here.rest.drop (StringText.extent multiline here.rest).length :=
    hcut.rest_of_trailing (hcut.trailing_nil (by show here.context.isCode = false; rw [hcontext]; rfl))
  have htext : t.text = here.rest.take (StringText.extent multiline here.rest).length := hcut.text_eq
  obtain ⟨outer, houter⟩ := Context.eq_cons_of_innermost hcontext' (by simp)
  refine ⟨multiline, Context.frames outer, m.rest, ?_, ?_, ?_, ?_, ?_⟩
  · rw [← hreads.frames_eq, houter]
    rfl
  · show (ofText source).rest = _
    rw [hreads.rest_eq, hrest, List.append_assoc, htext, hbehind, List.take_append_drop]
  · have hpos := StringText.extent_length_pos hquote hopen hclosed
    rw [htext, ne_eq, List.take_eq_nil_iff, not_or]
    refine ⟨Nat.ne_of_gt hpos, fun hnil => ?_⟩
    rw [hnil] at hclosed
    cases hclosed
  · rw [htext, hbehind]
    exact StringText.isUnits_of_closed hclosed
  · have hstop := StringText.extent_stop hclosed
    rw [← hbehind, StringText.startsInterpolation_eq, List.isPrefixOf_iff_prefix] at hstop
    refine hstop.symm.imp_right fun hend => ?_
    exact ⟨List.isPrefixOf_iff_prefix.mp hend, next, after, rfl, closing_of_quote hmcontext hend hm⟩

-- ---------------------------------------------------------------------------
-- Sources of one literal
-- ---------------------------------------------------------------------------

/-- The call hands out a token of the kind with the text, and leads to the rest and the contexts. -/
def Hands (l : Lexer) (kind : Kind) (text rest : List Char) (contexts : List Context) (m : Lexer) : Prop :=
  ∃ t, l.next = (.ok t, m) ∧ t.kind = kind ∧ t.text = text ∧ m.rest = rest ∧ m.contexts = contexts

variable {multiline : Bool} {text body : List Char} {opening : Pos} {outer : List Context}

theorem takeTrailing_of_ended (hrest : l.rest = []) (kind : Kind) : l.takeTrailing kind = (.ok [], l) := by
  unfold takeTrailing
  split
  · exact takeGap_of_nothing (by rw [hrest]; rfl)
  · rfl

theorem exists_hands_opening (hsource : source = '"' :: body)
    (hmultiline : StringText.opensMultiline body = multiline)
    (hquote : StringText.quote multiline ++ text = source) :
    ∃ m, (ofText source).Hands (quoteKind multiline) (StringText.quote multiline) text
      [.string multiline .origin, .code] m := by
  have hlexeme : (ofText source).lexeme = .ok ((ofText source).openingQuote body) := by
    rw [lexeme_of_isCode rfl]
    unfold codeLexeme
    rw [show (ofText source).rest = '"' :: body from hsource]
    rfl
  have hleading : (ofText source).takeLeading = (.ok [], ofText source) :=
    takeGap_of_nothing (by rw [show (ofText source).rest = '"' :: body from hsource]; rfl)
  refine ⟨_, _, next_ok_iff.mpr ⟨[], _, _, [], hleading, hlexeme, rfl, rfl⟩, ?_⟩
  unfold openingQuote
  rw [hmultiline]
  refine ⟨rfl, ?_, ?_, rfl⟩
  · show source.take _ = _
    rw [← hquote]
    exact StringText.take_quote text
  · show source.drop _ = _
    rw [← hquote]
    exact StringText.drop_quote text

theorem exists_hands_segment (hcontext : l.context = .string multiline opening)
    (hrest : l.rest = text ++ StringText.quote multiline)
    (h : StringText.IsUnits multiline (StringText.quote multiline) text) (hne : text ≠ []) :
    ∃ m, l.Hands .stringSegment text (StringText.quote multiline) l.contexts m := by
  have hstop : StringText.IsStop multiline (StringText.quote multiline) := .inl (by cases multiline <;> rfl)
  have hnot := StringText.not_isStop_of_isUnits h hstop hne
  rw [← hrest, StringText.IsStop, not_or, Bool.not_eq_true, Bool.not_eq_true] at hnot
  have hextent : StringText.extent multiline l.rest = ⟨text.length, true⟩ := by
    rw [hrest]
    exact StringText.extent_of_isUnits h hstop
  have hlexeme : l.lexeme = .ok (l.plain .stringSegment text.length) := by
    unfold lexeme
    simp only [hcontext, stringPart, hnot.1, hnot.2, hextent, Bool.false_eq_true, if_false, if_true]
  have hcode : l.context.isCode = false := by rw [hcontext]; rfl
  refine ⟨_, _, next_of_literal hcode hlexeme hcode, rfl, ?_, ?_, rfl⟩
  · show l.rest.take text.length = text
    rw [hrest, List.take_left]
  · show l.rest.drop text.length = _
    rw [hrest, List.drop_left]

theorem exists_hands_closing (hcontexts : l.contexts = [.string multiline opening, .code])
    (hrest : l.rest = StringText.quote multiline) :
    ∃ m, l.Hands (quoteKind multiline) (StringText.quote multiline) [] [.code] m := by
  have hcontext : l.context = .string multiline opening := by rw [context, hcontexts]; rfl
  have hquote : StringText.startsWithQuote multiline l.rest = true := by
    rw [hrest]
    cases multiline <;> rfl
  have hlexeme : l.lexeme = .ok { l.plain (quoteKind multiline) (StringText.quoteLength multiline) with
      contexts := [.code] } := by
    unfold lexeme
    simp only [hcontext, stringPart, hquote, if_true, hcontexts, List.tail_cons]
  have hleading : l.takeLeading = (.ok [], l) := by
    unfold takeLeading
    rw [hcontext]
    rfl
  have hnothing : l.rest.drop (StringText.quoteLength multiline) = [] := by
    rw [hrest, ← StringText.length_quote, List.drop_length]
  refine ⟨_, _, next_ok_iff.mpr ⟨[], l, _, [], hleading, hlexeme, takeTrailing_of_ended hnothing _, rfl⟩,
    rfl, ?_, hnothing, rfl⟩
  show l.rest.take (StringText.quoteLength multiline) = _
  rw [hrest, ← StringText.length_quote, List.take_length]

/-- Text of the grammar between quotes is a segment. -/
theorem tokens_of_isUnits (h : StringText.IsUnits multiline (StringText.quote multiline) text)
    (hne : text ≠ []) :
    ∃ ts, tokens (StringText.quote multiline ++ text ++ StringText.quote multiline) = .ok ts ∧
      ts.map (fun t => (t.kind, t.text)) =
        [(quoteKind multiline, StringText.quote multiline), (.stringSegment, text),
          (quoteKind multiline, StringText.quote multiline), (.eof, [])] := by
  have hstop : StringText.IsStop multiline (StringText.quote multiline) := .inl (by cases multiline <;> rfl)
  have hnot := StringText.not_isStop_of_isUnits h hstop hne
  obtain ⟨body, hbody, hmultiline⟩ : ∃ body,
      StringText.quote multiline ++ text ++ StringText.quote multiline = '"' :: body ∧
        StringText.opensMultiline body = multiline := by
    cases multiline with
    | true => exact ⟨_, rfl, rfl⟩
    | false =>
      refine ⟨_, rfl, Bool.eq_false_iff.mpr fun hopens => hnot (.inl ?_)⟩
      -- two more quote marks would close the literal at once
      rw [StringText.opensMultiline_eq, List.isPrefixOf_iff_prefix] at hopens
      exact List.isPrefixOf_iff_prefix.mpr ((List.prefix_append ['"'] ['"']).trans hopens)
  obtain ⟨k, first, hfirst, hkind, htext, hrest, hcontexts⟩ :=
    exists_hands_opening hbody hmultiline (List.append_assoc ..).symm
  obtain ⟨m, second, hsecond, hkind', htext', hrest', hcontexts'⟩ :=
    exists_hands_segment (by rw [context, hcontexts]; rfl) hrest h hne
  rw [hcontexts] at hcontexts'
  obtain ⟨n, third, hthird, hkind'', htext'', hrest'', hcontexts''⟩ :=
    exists_hands_closing hcontexts' hrest'
  have heof := next_of_ended (l := n) (by rw [context, hcontexts'']; rfl) hrest''
  have hquote : quoteKind multiline ≠ .eof := by cases multiline <;> decide
  have hreads := ((Reads.nil.snoc hfirst (by rwa [hkind])).snoc hsecond (by rw [hkind']; decide)).snoc
    hthird (by rwa [hkind''])
  refine ⟨_, tokens_of_reads hreads heof rfl, ?_⟩
  simp only [List.nil_append, List.cons_append, List.map_cons, List.map_nil, hkind, htext, hkind', htext',
    hkind'', htext'']

end Lexer

/-- **The text of a literal is cut off as the grammar of its sort says.** Every segment of a source is text
of the literal that is open there: units, at least one, up to an interpolation or the closing quote. And
any such text between quotes is a segment of its own. -/
theorem string_text_is_made_of_units :
    (∀ source before t behind, tokens source = .ok (before ++ t :: behind) → t.kind = .stringSegment →
      ∃ multiline outer rest, openFrames before = .literal multiline :: outer ∧
        source = before.flatMap Token.fullText ++ t.text ++ rest ∧ t.IsTextOf multiline rest behind) ∧
    (∀ multiline text, StringText.IsUnits multiline (StringText.quote multiline) text → text ≠ [] →
      ∃ ts, tokens (StringText.quote multiline ++ text ++ StringText.quote multiline) = .ok ts ∧
        ts.map (fun t => (t.kind, t.text)) =
          [(Lexer.quoteKind multiline, StringText.quote multiline), (.stringSegment, text),
            (Lexer.quoteKind multiline, StringText.quote multiline), (.eof, [])]) :=
  ⟨fun _ _ _ _ => Lexer.isTextOf_of_tokens, fun _ _ => Lexer.tokens_of_isUnits⟩

/-- An escaped backslash before an escaped quote mark is text on one line, and so are two quote marks before
an interpolation in a literal of several lines. -/
theorem string_text_is_made_of_units_escaped :
    (∃ ts, tokens ['"', '\\', '\\', '\\', '"', '"'] = .ok ts ∧ ts.map (fun t => (t.kind, t.text)) =
      [(.quote, ['"']), (.stringSegment, ['\\', '\\', '\\', '"']), (.quote, ['"']), (.eof, [])]) ∧
    ∃ before t behind rest, tokens "\"\"\"a\"\"\\(b)\"\"\"".toList = .ok (before ++ t :: behind) ∧
      t.text = "a\"\"".toList ∧ t.IsTextOf true rest behind := by
  constructor
  · refine string_text_is_made_of_units.2 false ['\\', '\\', '\\', '"'] ?_ (by decide)
    exact .escape (by simp [StringText.IsEscaped]) (.escape (by simp [StringText.IsEscaped]) .nil)
  · have hshapes : (tokens "\"\"\"a\"\"\\(b)\"\"\"".toList).toOption.map
        (List.map fun t => (t.kind, t.text)) =
          some [(.multilineQuote, "\"\"\"".toList), (.stringSegment, "a\"\"".toList),
            (.backslash, ['\\']), (.leftParen, ['(']), (.identifier, ['b']), (.interpolationEnd, [')']),
            (.multilineQuote, "\"\"\"".toList), (.eof, [])] := by
      decide +kernel
    obtain ⟨ts, hts, hmap⟩ := exists_ok_of_toOption_map hshapes
    obtain ⟨opening, ts, rfl, hopening, hmap⟩ := List.map_eq_cons_iff.mp hmap
    obtain ⟨t, behind, rfl, ht, -⟩ := List.map_eq_cons_iff.mp hmap
    obtain ⟨hkind, htext⟩ := Prod.mk.inj ht
    obtain ⟨multiline, outer, rest, hopen, -, h⟩ :=
      string_text_is_made_of_units.1 _ [opening] t behind hts hkind
    -- the quote before it opens a literal of several lines
    have hframes : openFrames [opening] = [.literal true] := by
      rw [openFrames, List.foldl_cons, (Prod.mk.inj hopening).1]
      rfl
    obtain rfl : true = multiline := Frame.literal.inj (List.cons.inj (hframes.symm.trans hopen)).1
    exact ⟨[opening], t, behind, rest, hts, htext, h⟩

end SwiftColoring
