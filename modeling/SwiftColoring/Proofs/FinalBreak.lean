import SwiftColoring.Proofs.Balance
import SwiftColoring.Proofs.Failing
import SwiftColoring.Proofs.SideBySide

/-!
# The end of a source is a line break

A lexer often looks further than the lexeme at hand, and where nothing is left it sees the end of the
source. It takes that for a line break: a line feed behind a source changes no token but the last,
which has one more break in its trivia, and no failure at all. Only a carriage return at the end of
the source would take the line feed for its own.

* `Gap.ofText_append_break` — trivia before the line feed, and the line feed itself.
* `Lexer.GoesOn` — a lexer before the rest of a source, and one before the same rest and the line feed.
* `Lexer.GoesOn.next_ok`, `Lexer.GoesOn.next_eof`, `Lexer.GoesOn.next_error` — they answer a call alike.
* `end_of_source_is_a_break` — the whole statement.
-/

namespace SwiftColoring

-- ---------------------------------------------------------------------------
-- The line feed
-- ---------------------------------------------------------------------------

theorem stops_break : Stops ['\n'] := .cons (by decide) []

/-- The trivia with the line feed behind it. -/
def Trivia.pushBreak (t : Trivia) : Trivia := t.push (.run .newline 1)

/-- Only the last piece of trivia can merge with one that is added. -/
theorem Trivia.push_append {t : Trivia} (ht : t ≠ []) (init : Trivia) (p : Piece) :
    (init ++ t).push p = init ++ t.push p := by
  induction init with
  | nil => rfl
  | cons q init ih =>
    obtain ⟨r, rest, hrest⟩ := List.exists_cons_of_ne_nil (List.append_ne_nil_of_right_ne_nil init ht)
    rw [hrest] at ih
    rw [List.cons_append, hrest, push, ih]
    rfl

/-- A run of line feeds can be added one line feed after the others. -/
theorem Trivia.push_newlines (t : Trivia) (n : Nat) :
    t.push (.run .newline (n + 1)) = (t.push (.run .newline n)).pushBreak := by
  have hsingle : ∀ q : Piece, push [q] (.run .newline (n + 1)) =
      (push [q] (.run .newline n)).pushBreak ∧ push [q] (.run .newline n) ≠ [] := by
    intro q
    cases q with
    | run u m =>
      by_cases hu : u = .newline
      · subst hu
        exact ⟨rfl, by simp [push, Piece.merge?]⟩
      · simp [push, Piece.merge?, hu, pushBreak]
    | lineComment | blockComment | garbage => simp [push, Piece.merge?, pushBreak]
  rcases List.eq_nil_or_concat t with rfl | ⟨init, q, rfl⟩
  · simp [push, pushBreak, Piece.merge?]
  · obtain ⟨hpush, hne⟩ := hsingle q
    rw [List.concat_eq_append, push_append (by simp), push_append (by simp), hpush, pushBreak, pushBreak,
      push_append hne]

/-- A line feed closes no comment. -/
theorem Comment.closing?_append_break (nested : Nat) (text : List Char) :
    closing? nested (text ++ ['\n']) = closing? nested text := by
  fun_induction closing? nested text with
  | case1 nested => simp [closing?]
  | case2 nested rest ih => simp only [List.cons_append, closing?, ih]
  | case3 rest => simp only [List.cons_append, closing?]
  | case4 rest nested ih => simp only [List.cons_append, closing?, ih]
  | case5 nested c rest hopens hcloses ih =>
    rw [List.cons_append, closing?, ih]
    · intro rest' hc hrest
      obtain ⟨rest, rfl, -⟩ := eq_cons_of_append_stop stops_break (by decide) hrest
      exact hopens rest hc rfl
    · intro rest' hc hrest
      obtain ⟨rest, rfl, -⟩ := eq_cons_of_append_stop stops_break (by decide) hrest
      exact hcloses rest hc rfl

-- ---------------------------------------------------------------------------
-- Trivia
-- ---------------------------------------------------------------------------

/-- A line feed goes on with nothing but a run of line feeds, or a carriage return. -/
theorem endsTrivia_break {atStart : Bool} {text : List Char} (hlast : text.getLast? ≠ some '\r')
    (hrun : RunUnit.ofText? text = some .newline → RunUnit.newline.count text < text.length) :
    EndsTrivia atStart text ['\n'] where
  feed h := absurd h hlast
  run u hu hbreak := by
    obtain rfl : RunUnit.newline = u := Option.some.inj hbreak
    rw [show RunUnit.newline.text.length = 1 from rfl, Nat.mul_one]
    exact hrun hu
  line _ := takeWhile_append_of_head (by simp [isLineBreak]) text
  block rest _ := Comment.closing?_append_break 0 rest

/-- A gap that is not changed by a line feed behind the text. Otherwise the gap holds the whole text
and goes on with the line feed. -/
inductive Gap.AtBreak (trailing : Bool) (text : List Char) (g g' : Gap) : Prop where
  | same (h : g' = g)
  | grown (htrailing : trailing = false) (hopen : g.openComment = false) (hopen' : g'.openComment = false)
      (hlength : g.length = text.length) (hlength' : g'.length = text.length + 1)
      (hpieces : ∀ t : Trivia, g'.pieces.foldl Trivia.push t = (g.pieces.foldl Trivia.push t).pushBreak)

theorem RunUnit.count_newlines (n : Nat) : RunUnit.newline.count (List.replicate n '\n') = n := by
  induction n with
  | zero => rw [count, if_neg (by decide)]
  | succ n ih =>
    rw [List.replicate_succ, count, if_pos (show ofText? ('\n' :: _) = some newline from rfl)]
    exact congrArg (· + 1) ih

/-- A run of line feeds that reaches the end of the text is the text. -/
theorem RunUnit.eq_newlines_of_le_count {text : List Char} (h : text.length ≤ newline.count text) :
    text = List.replicate text.length '\n' := by
  have hprefix := newline.run_isPrefix text
  have hrun : (Piece.run .newline (newline.count text)).text =
      List.replicate (newline.count text) '\n' := by
    simp [Piece.text, RunUnit.text]
  rw [hrun] at hprefix
  have heq := hprefix.eq_of_length_le (by rw [List.length_replicate]; exact h)
  rw [← heq, List.length_replicate]

namespace Gap

theorem ofText_newlines (atStart : Bool) (n : Nat) :
    ofText false atStart (List.replicate (n + 1) '\n') = ⟨[.run .newline (n + 1)], false⟩ := by
  have hstart : GapStart.ofText false atStart (List.replicate (n + 1) '\n') =
      .piece (.run .newline (n + 1)) := by
    have hstart : GapStart.ofText false atStart ('\n' :: List.replicate n '\n') =
        .piece (.run .newline (RunUnit.newline.count ('\n' :: List.replicate n '\n'))) := rfl
    rwa [← List.replicate_succ, RunUnit.count_newlines] at hstart
  have hnothing : (List.replicate (n + 1) '\n').drop (Piece.run .newline (n + 1)).text.length = [] := by
    simp [Piece.text, RunUnit.text]
  rw [ofText_of_piece hstart, hnothing, ofText_of_nothing rfl]

/-- A run of line feeds has one more, where breaks are trivia at all. -/
private theorem atBreak_newlines (trailing atStart : Bool) (n : Nat) :
    AtBreak trailing (List.replicate n '\n') (ofText trailing atStart (List.replicate n '\n'))
      (ofText trailing atStart (List.replicate (n + 1) '\n')) := by
  cases trailing with
  | true =>
    refine .same ?_
    cases n <;> rw [ofText_of_nothing rfl, ofText_of_nothing rfl]
  | false =>
    cases n with
    | zero =>
      rw [ofText_newlines, ofText_of_nothing rfl]
      exact .grown rfl rfl rfl rfl rfl fun t => rfl
    | succ n =>
      rw [ofText_newlines, ofText_newlines]
      exact .grown rfl rfl rfl (by simp [length, Piece.text, RunUnit.text])
        (by simp [length, Piece.text, RunUnit.text]) fun t => t.push_newlines (n + 1)

theorem ofText_append_break (trailing atStart : Bool) {text : List Char}
    (hlast : text.getLast? ≠ some '\r') :
    AtBreak trailing text (ofText trailing atStart text) (ofText trailing atStart (text ++ ['\n'])) := by
  induction hn : text.length using Nat.strongRecOn generalizing atStart text with
  | ind n ih =>
    subst hn
    -- nothing but line feeds is left, or whatever starts ends before the line feed
    by_cases hfeeds : text.length ≤ RunUnit.newline.count text
    · have htext := RunUnit.eq_newlines_of_le_count hfeeds
      generalize text.length = n at htext
      rw [htext, ← List.replicate_succ']
      exact atBreak_newlines trailing atStart n
    · have hne : text ≠ [] := by
        rintro rfl
        exact hfeeds (Nat.zero_le _)
      have hsame : GapStart.ofText trailing atStart (text ++ ['\n']) =
          GapStart.ofText trailing atStart text :=
        GapStart.ofText_append_stop stops_break hne (endsTrivia_break hlast fun _ => by omega)
      cases hstart : GapStart.ofText trailing atStart text with
      | nothing => exact .same (by rw [ofText_of_nothing hstart, ofText_of_nothing (hsame.trans hstart)])
      | openComment =>
        exact .same (by rw [ofText_of_openComment hstart, ofText_of_openComment (hsame.trans hstart)])
      | piece p =>
        obtain ⟨hp, hprefix⟩ := GapStart.ofText_eq_piece hstart
        have hpos := List.length_pos_iff.mpr hp
        have hle := hprefix.length_le
        have hshort : (text.drop p.text.length).length < text.length := by
          rw [List.length_drop]
          omega
        have hlast' : (text.drop p.text.length).getLast? ≠ some '\r' := by
          rw [List.getLast?_drop]
          split
          · exact fun h => by cases h
          · exact hlast
        rw [ofText_of_piece hstart, ofText_of_piece (hsame.trans hstart),
          List.drop_append_of_le_length hle]
        cases ih _ hshort false hlast' rfl with
        | same h => exact .same (by rw [h])
        | grown htrailing hopen hopen' hlength hlength' hpieces =>
          refine .grown htrailing hopen hopen' ?_ ?_ fun t => hpieces (t.push p)
          all_goals
            simp only [length, Trivia.text_cons, List.length_append, List.length_drop]
              at hlength hlength' ⊢
            omega

end Gap

-- ---------------------------------------------------------------------------
-- Literals
-- ---------------------------------------------------------------------------

/-- A literal that does not end is not ended by a line feed. -/
theorem StringText.extent_append_break {multiline : Bool} {text : List Char}
    (h : (extent multiline text).closed = false) :
    (extent multiline (text ++ ['\n'])).closed = false := by
  rcases extent_append_stop stops_break multiline text with hsame | ⟨-, k, hk⟩
  · rw [hsame, h]
  · rw [hk]
    cases k with
    | zero => cases multiline <;> rfl
    | succ k =>
      rw [List.drop_succ_cons, List.drop_nil]
      rfl

theorem RawString.extent_append_break {hashes : Nat} {text : List Char}
    (h : (extent hashes text).closed = false) : (extent hashes (text ++ ['\n'])).closed = false := by
  rcases extent_append_stop stops_break hashes text with hsame | ⟨-, multiline, hon⟩
  · rw [hsame, h]
  · have hprefix : (terminator hashes multiline).isPrefixOf ['\n'] = false := by
      cases multiline <;> rfl
    rw [hon]
    simp only [bodyExtent, hprefix, Bool.false_eq_true, if_false]
    cases multiline <;> rfl

-- ---------------------------------------------------------------------------
-- The same place in both sources
-- ---------------------------------------------------------------------------

/-- Every index answers to itself. -/
def Matching.identity : Matching where
  index := Eq
  unique h h' := by rw [h, h']

theorem followsAlike_break (index : Nat) : FollowsAlike .identity index index [] ['\n'] where
  stops := .nil
  stops' := stops_break
  keyword _ := rfl
  marks _ _ := .none

/-- The eof token of a source with one more line feed: the break joins the trivia before it. -/
def Token.withBreak (eof : Token) : Token :=
  { eof with
    leading := eof.leading.pushBreak
    span := .point ⟨eof.span.start.line + 1, 0, eof.span.start.offset + 1⟩ }

namespace Lexer

/-- Two lexers at one place, in a source and in the same source with a line feed behind it. -/
structure GoesOn (l l' : Lexer) : Prop where
  before : l'.before = l.before
  rest : l'.rest = l.rest ++ ['\n']
  index : l'.index = l.index
  pos : l'.pos = l.pos
  contexts : l'.contexts = l.contexts
  angles : AngleMarks.Like .identity l.angles l'.angles
  last : l.rest.getLast? ≠ some '\r'

/-- Two lexers behind all trivia, at the ends of the two sources. -/
structure EndsBehind (here here' : Lexer) : Prop where
  rest : here.rest = []
  rest' : here'.rest = []
  pos : here'.pos = here.pos.advance '\n'
  contexts : here'.contexts = here.contexts

theorem goesOn_ofText {source : List Char} (h : source.getLast? ≠ some '\r') :
    GoesOn (ofText source) (ofText (source ++ ['\n'])) :=
  ⟨rfl, rfl, rfl, rfl, rfl, .empty _, h⟩

/-- What the two lexers find of trivia, behind a token or before one. -/
inductive GapsAlike (trailing : Bool) :
    Except Failure Trivia × Lexer → Except Failure Trivia × Lexer → Prop where
  | failed (failure : Failure) (behind behind' : Lexer) :
      GapsAlike trailing (.error failure, behind) (.error failure, behind')
  | same {here here' : Lexer} (trivia : Trivia) (h : GoesOn here here') :
      GapsAlike trailing (.ok trivia, here) (.ok trivia, here')
  /-- The line feed is found as well. -/
  | grown {here here' : Lexer} (trivia : Trivia) (htrailing : trailing = false)
      (h : EndsBehind here here') : GapsAlike trailing (.ok trivia, here) (.ok trivia.pushBreak, here')

/-- What the two lexers answer. -/
inductive CallsAlike : Except Failure Token × Lexer → Except Failure Token × Lexer → Prop where
  | failed (failure : Failure) (behind behind' : Lexer) :
      CallsAlike (.error failure, behind) (.error failure, behind')
  | token {t : Token} {behind behind' : Lexer} (hkind : t.kind ≠ .eof) (h : GoesOn behind behind') :
      CallsAlike (.ok t, behind) (.ok t, behind')
  | eof {t : Token} (hkind : t.kind = .eof) (behind behind' : Lexer) :
      CallsAlike (.ok t, behind) (.ok t.withBreak, behind')

namespace GoesOn

variable {source : List Char} {l l' : Lexer} {x x' y : Lexeme} {stop : Interruption}

theorem context (h : GoesOn l l') : l'.context = l.context :=
  congrArg Context.innermost h.contexts

theorem advance (h : GoesOn l l') {n : Nat} (hn : n ≤ l.rest.length) :
    GoesOn (l.advance n) (l'.advance n) := by
  have htake : l'.rest.take n = l.rest.take n := by
    rw [h.rest, List.take_append_of_le_length hn]
  refine ⟨?_, ?_, ?_, ?_, h.contexts, h.angles, ?_⟩
  · simp only [advance_toCursor, Cursor.advance_before, htake, h.before]
  · simp only [advance_toCursor, Cursor.advance_rest, h.rest, List.drop_append_of_le_length hn]
  · simp only [advance_toCursor, Cursor.advance_index, htake, h.index]
  · simp only [advance_toCursor, Cursor.advance_pos, htake, h.pos]
  · simp only [advance_toCursor, Cursor.advance_rest, List.getLast?_drop]
    split
    · exact fun hnone => by cases hnone
    · exact h.last

theorem accept (h : GoesOn l l') (hlexeme : l.lexeme = .ok x) (hlexeme' : l'.lexeme = .ok x')
    (hx : x.Like .identity x') (hn : x.length ≤ l.rest.length) : GoesOn (l.accept x) (l'.accept x') := by
  have hadvance : GoesOn (l.advance x.length) (l'.advance x'.length) := by
    rw [hx.length]
    exact h.advance hn
  have hcontexts : x'.contexts = x.contexts := by
    rw [contexts_of_lexeme hlexeme, contexts_of_lexeme hlexeme', hx.kind, h.pos, h.contexts]
  exact ⟨hadvance.before, hadvance.rest, hadvance.index, hadvance.pos, hcontexts, hx.angles,
    hadvance.last⟩

theorem beside (h : GoesOn l l') : Beside .identity l.rest [] ['\n'] l l' where
  rest := (List.append_nil _).symm
  rest' := h.rest
  precedes := by
    rw [h.before]
    exact .refl _
  follows := by
    rw [h.index]
    exact followsAlike_break _
  index k _ := by rw [h.index]; rfl
  context := by
    rw [h.context]
    exact (Context.Like.refl _).sameSort
  paren _ := by rw [h.context]
  angles := h.angles

-- ---------------------------------------------------------------------------
-- One call
-- ---------------------------------------------------------------------------

theorem takeGap (h : GoesOn l l') (trailing : Bool) :
    GapsAlike trailing (l.takeGap trailing) (l'.takeGap trailing) := by
  have hgap := Gap.ofText_append_break trailing l.before.isEmpty h.last
  have hle : (Gap.ofText trailing l.before.isEmpty l.rest).length ≤ l.rest.length :=
    (Gap.text_isPrefix ..).length_le
  have hstop := Gap.ofText_stop trailing l.before.isEmpty l.rest
  unfold Lexer.takeGap
  rw [h.before, h.rest]
  generalize Gap.ofText trailing l.before.isEmpty l.rest = gap at hgap hle hstop
  generalize Gap.ofText trailing l.before.isEmpty (l.rest ++ ['\n']) = gap' at hgap
  have hbehind := h.advance hle
  cases hgap with
  | same heq =>
    subst heq
    simp only
    split
    · rename_i hopen
      -- the marker of the comment lies before the line feed
      rw [if_pos hopen] at hstop
      obtain ⟨rest, hrest, -⟩ := GapStart.eq_cons_of_openComment hstop
      have hmarker : (l'.advance gap'.length).rest.take 2 = (l.advance gap'.length).rest.take 2 := by
        rw [hbehind.rest]
        refine List.take_append_of_le_length ?_
        rw [advance_toCursor, Cursor.advance_rest, hrest]
        simp
      rw [hmarker, hbehind.pos]
      exact .failed ..
    · exact .same _ hbehind
  | grown htrailing hopen hopen' hlength hlength' hpieces =>
    simp only
    rw [hopen, hopen', if_neg Bool.false_ne_true, if_neg Bool.false_ne_true]
    have htrivia : Trivia.ofList gap'.pieces = (Trivia.ofList gap.pieces).pushBreak := hpieces []
    have hends : EndsBehind (l.advance gap.length) (l'.advance gap'.length) := by
      have hall : l'.rest.take gap'.length = l.rest ++ ['\n'] := by
        rw [h.rest, List.take_of_length_le (by rw [List.length_append, hlength']; exact Nat.le_refl _)]
      refine ⟨?_, ?_, ?_, h.contexts⟩
      · rw [advance_toCursor, Cursor.advance_rest, hlength, List.drop_length]
      · rw [advance_toCursor, Cursor.advance_rest, h.rest]
        exact List.drop_eq_nil_of_le (by rw [List.length_append, hlength']; exact Nat.le_refl _)
      · rw [advance_toCursor, Cursor.advance_pos, advance_toCursor, Cursor.advance_pos, hall, h.pos,
          hlength, List.take_length, Pos.after_append]
        rfl
    rw [htrivia]
    exact .grown _ htrailing hends

theorem takeLeading (h : GoesOn l l') : GapsAlike false l.takeLeading l'.takeLeading := by
  unfold Lexer.takeLeading
  rw [h.context]
  split
  · exact h.takeGap false
  · exact .same [] h

theorem takeTrailing (h : GoesOn l l') (kind : Kind) :
    GapsAlike true (l.takeTrailing kind) (l'.takeTrailing kind) := by
  unfold Lexer.takeTrailing
  rw [h.context]
  split
  · exact h.takeGap true
  · exact .same [] h

/-- The line feed is never left to a token. -/
theorem rest_ne_nil {here here' : Lexer} {leading : Trivia}
    (hleading : l'.takeLeading = (.ok leading, here')) (h : GoesOn here here')
    (hcode : l'.context.isCode = true) : here.rest ≠ [] := by
  intro hnil
  have hstop := (takeLeading_ok hleading).2.1 hcode
  rw [h.rest, hnil] at hstop
  cases hstop

theorem lexeme_ok (h : GoesOn l l') (hne : l.rest ≠ []) (hx : l.lexeme = .ok x) :
    ∃ x', l'.lexeme = .ok x' ∧ x.Like .identity x' :=
  h.beside.lexeme hne hx (lexeme_length_le hx fun _ _ => hne)

/-- A lexeme that is not found is not found with a line feed behind the source either. -/
theorem lexeme_error (h : GoesOn l l') (hne : l.context.isCode = true → l.rest ≠ [])
    (hstop : l.lexeme = .error stop) :
    ∃ stop', l'.lexeme = .error stop' ∧ stop'.failure = stop.failure := by
  cases finds_of_interruption hstop with
  | @openString multiline opening hcontext hquote hopen hclosed =>
    refine ⟨⟨.openString opening, (StringText.extent multiline (l.rest ++ ['\n'])).length⟩, ?_, rfl⟩
    unfold Lexer.lexeme
    simp only [h.context, hcontext]
    unfold Lexer.stringPart
    rw [h.rest, StringText.startsWithQuote_append_stop stops_break, hquote,
      StringText.startsInterpolation_append_stop stops_break, hopen]
    simp only [StringText.extent_append_break hclosed, Bool.false_eq_true, if_false]
  | openInterpolation hcontext hrest => exact absurd hrest (hne (by rw [hcontext]; rfl))
  | @openRawString text body hcode hrest hbody hclosed =>
    have hhashes := (List.takeWhile_prefix (· == '#') (l := text)).length_le
    refine ⟨⟨.openRawString l.pos, (RawString.extent ((text.takeWhile (· == '#')).length + 1)
      (body ++ ['\n'])).length⟩, ?_, rfl⟩
    rw [lexeme_of_isCode (by rw [h.context]; exact hcode)]
    unfold Lexer.codeLexeme
    rw [h.rest, hrest]
    show l'.poundLexeme (text ++ ['\n']) = _
    unfold Lexer.poundLexeme
    rw [takeWhile_append_stop stops_break (forall_stoppers (by decide))]
    simp only [List.drop_append_of_le_length hhashes, hbody, List.cons_append,
      RawString.extent_append_break hclosed, Bool.false_eq_true, if_false, h.pos]

end GoesOn

/-- At the ends of both sources there is the eof token, or an interpolation that never ends. -/
theorem EndsBehind.lexeme {here here' : Lexer} (h : EndsBehind here here')
    (hcode : here.context.isCode = true) :
    (∃ stop, here.lexeme = .error stop ∧ here'.lexeme = .error stop) ∨
      here.lexeme = .ok (here.plain .eof 0) ∧ here'.lexeme = .ok (here'.plain .eof 0) := by
  have hsame : here'.context = here.context := congrArg Context.innermost h.contexts
  rw [lexeme_of_isCode hcode, lexeme_of_isCode (by rw [hsame]; exact hcode)]
  unfold codeLexeme
  simp only [h.rest, h.rest', hsame]
  cases here.context with
  | interpolation => exact .inl ⟨_, rfl, rfl⟩
  | code | string | interpolationStart => exact .inr ⟨rfl, rfl⟩

namespace GoesOn

variable {source : List Char} {l l' m : Lexer} {ts : List Token}

/-- Two lexers at one place answer a call alike. -/
theorem next (h : GoesOn l l') (hl : l.InOrder source) : CallsAlike l.next l'.next := by
  have hleading := h.takeLeading
  unfold Lexer.next
  generalize hgap : l.takeLeading = gap at hleading
  generalize hgap' : l'.takeLeading = gap' at hleading
  cases hleading with
  | failed failure behind behind' => exact .failed ..
  | @same here here' leading hhere =>
    have hcontext : here'.context = l'.context := by
      rw [(takeLeading_ok hgap').1.eq_advance, advance_context]
    have hne : here.context.isCode = true → here.rest ≠ [] := fun hcode =>
      rest_ne_nil hgap' hhere (by rw [← hcontext, hhere.context, hcode])
    cases hlexeme : here.lexeme with
    | error stop =>
      obtain ⟨stop', hstop', hfailure⟩ := hhere.lexeme_error hne hlexeme
      simp only [hlexeme, hstop', hfailure]
      exact .failed ..
    | ok x =>
      have hkind : x.kind ≠ .eof := by
        intro hkind
        obtain ⟨hcode, hnil⟩ := at_end_of_kind_eof hlexeme hkind
        exact hne (by rw [hcode]; rfl) hnil
      have hrest := ((hl.takeLeading hgap).rest_ne_nil hlexeme hkind).1
      have hlength := lexeme_length_le hlexeme fun _ _ => hrest
      obtain ⟨x', hlexeme', hx⟩ := hhere.lexeme_ok hrest hlexeme
      have haccept := hhere.accept hlexeme hlexeme' hx hlength
      have htrailing := haccept.takeTrailing x.kind
      have htext : here'.rest.take x'.length = here.rest.take x.length := by
        rw [hx.length, hhere.rest, List.take_append_of_le_length hlength]
      simp only [hlexeme, hlexeme', hx.kind, htext, haccept.pos, hhere.pos]
      generalize (here.accept x).takeTrailing x.kind = gap at htrailing
      generalize (here'.accept x').takeTrailing x.kind = gap' at htrailing
      cases htrailing with
      | failed failure behind behind' => exact .failed ..
      | same trailing hbehind => exact .token hkind hbehind
      | grown _ htrailing _ => cases htrailing
  | @grown here here' leading _ hends =>
    have hcode : here.context.isCode = true := by
      rw [(takeLeading_ok hgap).1.eq_advance, advance_context, ← h.context]
      refine Bool.not_eq_false _ ▸ fun hnot => ?_
      -- outside of code there would be no trivia
      have hnone := congrArg Trivia.text ((takeLeading_ok hgap').2.2 hnot)
      simp [Trivia.pushBreak, Piece.text, RunUnit.text] at hnone
    rcases hends.lexeme hcode with ⟨stop, hstop, hstop'⟩ | ⟨heof, heof'⟩
    · simp only [hstop, hstop']
      exact .failed ..
    · have hpos : here'.pos = ⟨here.pos.line + 1, 0, here.pos.offset + 1⟩ := hends.pos
      have htrailing : ∀ k : Lexer, k.takeTrailing .eof = (.ok [], k) := fun k => by
        simp [Lexer.takeTrailing]
      simp only [heof, heof', plain, htrailing]
      rw [show (here'.accept ⟨.eof, 0, here'.contexts, here'.angles⟩).pos = here'.pos from rfl, hpos]
      exact .eof rfl ..

-- ---------------------------------------------------------------------------
-- All calls
-- ---------------------------------------------------------------------------

/-- Calls in a row hand out the same tokens. -/
theorem reads (h : GoesOn l l') (hl : l.InOrder source) (hreads : l.Reads ts m) :
    ∃ m', l'.Reads ts m' ∧ GoesOn m m' := by
  induction hreads with
  | nil => exact ⟨l', .nil, h⟩
  | @snoc ts m behind t hreads hnext hkind ih =>
    obtain ⟨m', hreads', hm⟩ := ih
    have hcalls := hm.next (hreads.inOrder hl)
    rw [hnext] at hcalls
    generalize hnext' : m'.next = answer' at hcalls
    cases hcalls with
    | token _ hbehind => exact ⟨_, hreads'.snoc hnext' hkind, hbehind⟩
    | eof heof => exact absurd heof hkind

/-- The streams are the same up to the eof token. -/
theorem stream (h : GoesOn l l') (hl : l.InOrder source) (hfinished : l.finished = false)
    (hfinished' : l'.finished = false) :
    l'.stream = ⟨l.stream.tokens, l.stream.ending.map Token.withBreak⟩ := by
  obtain ⟨m, hreads, hending, hkind⟩ := l.exists_reads_stream hfinished
  obtain ⟨m', hreads', hm⟩ := h.reads hl hreads
  have hcalls := hm.next (hreads.inOrder hl)
  rw [stream_of_reads hreads' hfinished']
  generalize hnext : m.next = answer at hcalls hending
  generalize hnext' : m'.next = answer' at hcalls
  replace hnext' := congrArg Prod.fst hnext'
  rw [← hending]
  cases hcalls with
  | failed failure behind behind' =>
    rw [stream_of_error hnext', List.append_nil]
    rfl
  | token hne => exact absurd (hkind _ hending.symm) hne
  | eof heof =>
    rw [stream_of_eof hnext' heof, List.append_nil]
    rfl

end GoesOn

end Lexer

-- ---------------------------------------------------------------------------
-- The whole statement
-- ---------------------------------------------------------------------------

/-- The tree of a source with one more line feed. -/
def SourceTree.withBreak (tree : SourceTree) : SourceTree := { tree with eof := tree.eof.withBreak }

theorem TokenStream.ofText_append_break {source : List Char} (h : source.getLast? ≠ some '\r') :
    ofText (source ++ ['\n']) =
      ⟨(ofText source).tokens, (ofText source).ending.map Token.withBreak⟩ :=
  (Lexer.goesOn_ofText h).stream (Lexer.inOrder_ofText source) rfl rfl

theorem SourceTree.ofText?_append_break {source : List Char} (h : source.getLast? ≠ some '\r') :
    ofText? (source ++ ['\n']) = (ofText? source).map withBreak := by
  unfold ofText? ofStream?
  rw [TokenStream.ofText_append_break h]
  cases (TokenStream.ofText source).tokens.foldlM Growth.push .empty with
  | error failure => rfl
  | ok g =>
    cases (TokenStream.ofText source).ending with
    | error failure => rfl
    | ok eof =>
      show g.finish eof.withBreak = (g.finish eof).map withBreak
      unfold Growth.finish
      cases g.groups <;> rfl

/-- **The end of a source is a line break.** A line feed behind a source that does not end in a carriage
return changes no token but the last, which is empty and stands one line further, with the break in the
trivia before it. A source that cannot be read fails as before. So does one that makes no tree, and
otherwise the tree differs in the last token only. -/
theorem end_of_source_is_a_break {source : List Char} (hlast : source.getLast? ≠ some '\r') :
    (∀ ts, tokens source = .ok ts → ∃ init eof, ts = init ++ [eof] ∧
      eof.kind = .eof ∧ eof.text = [] ∧ eof.span = .point eof.span.start ∧
      tokens (source ++ ['\n']) = .ok (init ++ [eof.withBreak])) ∧
    (∀ failure, tokens source = .error failure → tokens (source ++ ['\n']) = .error failure) ∧
    SourceTree.ofText? (source ++ ['\n']) = (SourceTree.ofText? source).map SourceTree.withBreak := by
  have htokens : tokens (source ++ ['\n']) =
      (TokenStream.mk (TokenStream.ofText source).tokens
        ((TokenStream.ofText source).ending.map Token.withBreak)).toExcept :=
    congrArg TokenStream.toExcept (TokenStream.ofText_append_break hlast)
  refine ⟨fun ts hts => ?_, fun failure hfailure => ?_, SourceTree.ofText?_append_break hlast⟩
  · obtain ⟨init, eof, m, behind, rfl, hreads, hnext, hkind⟩ := Lexer.exists_reads_of_tokens hts
    obtain ⟨here, x, hcut⟩ := Lexer.next_cut hnext
    have htext := hcut.text_of_eof hkind
    have hspan : eof.span = .point eof.span.start := by
      have hstay : (here.accept x).pos = here.pos := by
        show here.pos.after (here.rest.take x.length) = here.pos
        rw [← hcut.text_eq, htext]
        rfl
      rw [hcut.span_eq, hstay]
      rfl
    refine ⟨init, eof, rfl, hkind, htext, hspan, ?_⟩
    rw [htokens]
    unfold TokenStream.ofText
    rw [Lexer.stream_of_reads hreads rfl, Lexer.stream_of_eof (congrArg Prod.fst hnext) hkind]
    simp [TokenStream.toExcept, Except.map]
  · rw [htokens]
    unfold tokens TokenStream.toExcept at hfailure
    unfold TokenStream.toExcept
    cases hending : (TokenStream.ofText source).ending with
    | ok eof =>
      rw [hending] at hfailure
      cases hfailure
    | error stop =>
      rw [hending] at hfailure
      exact hfailure

/-- The comment ends where the source does, as it would before a break. -/
theorem end_of_source_is_a_break_comment :
    "a < b //".toList.getLast? ≠ some '\r' ∧
      ∃ init eof, eof.kind = .eof ∧ eof.text = [] ∧
        eof.leading = [] ∧ eof.withBreak.leading = [.run .newline 1] ∧
        eof.span.start = ⟨0, 8, 8⟩ ∧ eof.withBreak.span.start = ⟨1, 0, 9⟩ ∧
        tokens "a < b //".toList = .ok (init ++ [eof]) ∧
        tokens ("a < b //".toList ++ ['\n']) = .ok (init ++ [eof.withBreak]) := by
  have hlast : "a < b //".toList.getLast? ≠ some '\r' := by decide
  obtain ⟨ts, hts, hend⟩ : ∃ ts, tokens "a < b //".toList = .ok ts ∧
      ts.getLast?.map (fun t => (t.leading, t.span.start)) = some ([], ⟨0, 8, 8⟩) :=
    exists_ok_of_toOption_map (by decide +kernel)
  obtain ⟨init, eof, rfl, hkind, htext, -, hbroken⟩ := (end_of_source_is_a_break hlast).1 ts hts
  rw [List.getLast?_concat] at hend
  obtain ⟨hleading, hstart⟩ := Prod.mk.inj (Option.some.inj hend)
  refine ⟨hlast, init, eof, hkind, htext, hleading, ?_, hstart, ?_, hts, hbroken⟩
  · rw [Token.withBreak, hleading]
    rfl
  · rw [Token.withBreak, hstart]
    rfl

end SwiftColoring
