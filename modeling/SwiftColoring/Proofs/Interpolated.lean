import SwiftColoring.Proofs.AngleStep
import SwiftColoring.Proofs.ClosingParen
import SwiftColoring.Proofs.Literals
import SwiftColoring.Proofs.SideBySide

/-!
# Code inside an interpolation

Code is read inside an interpolation as it is read on its own. The two lexers run side by side: one
over the code alone, one over the code between an opening parenthesis that a literal awaits and a
closing one. Their cursors differ by what stands around the code, their contexts by what is at the
bottom, plain code here and an interpolation of a literal there. The interpolation counts the
parentheses that are open, and ends only at the closing parenthesis behind the code because none in
the code closes more than was opened.

* `Context.Embeds` — contexts with another bottom.
* `Lexer.Inside` — the two lexers at the same place of the code. This is the invariant.
* `Lexer.Inside.lexeme` — they find the same lexeme.
* `Lexer.Inside.trivia` — they find the same trivia, though a token may hold other parts of it.
* `interpolated_as_on_its_own` — the whole statement.
-/

namespace SwiftColoring

-- ---------------------------------------------------------------------------
-- Contexts
-- ---------------------------------------------------------------------------

/-- Contexts that differ in the bottom, which is plain code in the first and an interpolation of a
literal in the second. The number is that of the parentheses open in all interpolations, with those
that began an interpolation inside the code. -/
inductive Context.Embeds : Nat → List Context → List Context → Prop where
  | code {depth : Nat} (o o' : Pos) :
      Embeds depth [.code] [.interpolation depth o, .string false o', .code]
  | string {n : Nat} {outer outer' : List Context} (multiline : Bool) (o o' : Pos)
      (h : Embeds n outer outer') :
      Embeds n (.string multiline o :: outer) (.string multiline o' :: outer')
  | interpolationStart {n : Nat} {outer outer' : List Context} (o o' : Pos)
      (h : Embeds n outer outer') :
      Embeds n (.interpolationStart o :: outer) (.interpolationStart o' :: outer')
  | interpolation {n : Nat} {outer outer' : List Context} (depth : Nat) (o o' : Pos)
      (h : Embeds n outer outer') :
      Embeds (n + depth + 1) (.interpolation depth o :: outer) (.interpolation depth o' :: outer')

namespace Context.Embeds

variable {n : Nat} {cs cs' : List Context}

theorem isCode_eq (h : Embeds n cs cs') : (innermost cs').isCode = (innermost cs).isCode := by
  cases h <;> rfl

theorem enterParen (h : Embeds n cs cs') (hcode : (innermost cs).isCode = true) :
    Embeds (n + 1) (Context.enterParen cs) (Context.enterParen cs') := by
  cases h with
  | code o o' => exact .code o o'
  | interpolation depth o o' h => exact .interpolation (depth + 1) o o' h
  | string | interpolationStart => cases hcode

/-- A parenthesis that ends no interpolation closes one that is open. -/
theorem leaveParen (h : Embeds n cs cs') (hcode : (innermost cs).isCode = true)
    (hends : (innermost cs).endsInterpolation = false) (hn : 1 ≤ n) :
    ∃ m, Embeds m (Context.leaveParen cs) (Context.leaveParen cs') ∧ m + 1 = n := by
  cases h with
  | code o o' =>
    obtain ⟨m, rfl⟩ := Nat.exists_eq_add_of_le' hn
    exact ⟨m, .code o o', rfl⟩
  | interpolation depth o o' h =>
    cases depth with
    | zero => cases hends
    | succ depth => exact ⟨_, .interpolation depth o o' h, rfl⟩
  | string | interpolationStart => cases hcode

/-- The parenthesis that ends an interpolation was counted with those that are open. -/
theorem endInterpolation {o : Pos} (h : Embeds n cs cs') (hcontext : innermost cs = .interpolation 0 o) :
    ∃ m, Embeds m cs.tail cs'.tail ∧ m + 1 = n := by
  cases h with
  | interpolation depth o o' h =>
    obtain ⟨rfl, -⟩ := Context.interpolation.inj hcontext
    exact ⟨_, h, rfl⟩
  | code | string | interpolationStart => cases hcontext

/-- As long as a parenthesis is open, none ends the interpolation at the bottom. -/
theorem endsInterpolation_eq (h : Embeds n cs cs') (hn : innermost cs = .code → 1 ≤ n) :
    (innermost cs').endsInterpolation = (innermost cs).endsInterpolation := by
  cases h with
  | code o o' =>
    obtain ⟨m, rfl⟩ := Nat.exists_eq_add_of_le' (hn rfl)
    rfl
  | interpolation depth => cases depth <;> rfl
  | string | interpolationStart => rfl

/-- A literal is open in both or in none. -/
theorem of_string {multiline : Bool} {o : Pos} (h : Embeds n cs cs')
    (hcontext : innermost cs = .string multiline o) :
    ∃ o', innermost cs' = .string multiline o' ∧ Embeds n cs.tail cs'.tail := by
  cases h with
  | string multiline' o o' h =>
    obtain ⟨rfl, -⟩ := Context.string.inj hcontext
    exact ⟨o', rfl, h⟩
  | code | interpolationStart | interpolation => cases hcontext

theorem of_interpolationStart {o : Pos} (h : Embeds n cs cs')
    (hcontext : innermost cs = .interpolationStart o) :
    ∃ o', innermost cs' = .interpolationStart o' ∧ Embeds n cs.tail cs'.tail := by
  cases h with
  | interpolationStart o o' h => exact ⟨o', rfl, h⟩
  | code | string | interpolation => cases hcontext

theorem sameSort (h : Embeds n cs cs') : (innermost cs).SameSort (innermost cs') := by
  cases h with
  | code | interpolation => exact .code rfl rfl
  | string multiline o o' => exact .string multiline o o'
  | interpolationStart o o' => exact .interpolationStart o o'

/-- Plain code is found at the bottom only. -/
theorem of_code (h : Embeds n cs cs') (hcode : innermost cs = .code) :
    ∃ o o', cs' = [.interpolation n o, .string false o', .code] := by
  cases h with
  | code o o' => exact ⟨o, o', rfl⟩
  | string | interpolationStart | interpolation => cases hcode

end Context.Embeds

-- ---------------------------------------------------------------------------
-- Tokens
-- ---------------------------------------------------------------------------

/-- A token without its trivia, and where it lies in bytes. -/
structure TokenCore where
  kind : Kind
  text : List Char
  start : Nat
  stop : Nat
  deriving DecidableEq, Repr

/-- The token without its trivia. -/
def Token.core (t : Token) : TokenCore :=
  ⟨t.kind, t.text, t.span.start.offset, t.span.stop.offset⟩

/-- The same token a number of bytes further on. -/
def TokenCore.shift (n : Nat) (c : TokenCore) : TokenCore :=
  { c with start := c.start + n, stop := c.stop + n }

/-- The trivia that the tokens end in; the first argument is that behind the token before them. The
last token, which ends the source, has trivia before it only. -/
def triviaAtEnd (behind : Trivia) : List Token → Trivia
  | [] => behind
  | [eof] => behind ++ eof.leading
  | t :: u :: ts => triviaAtEnd t.trailing (u :: ts)

/-- The tokens close all parentheses that they open and so many opened before, and never more. An
interpolation ends with a parenthesis, too. -/
structure ClosesParens (depth : Nat) (ts : List Token) : Prop where
  closed_le : ∀ first, first <+: ts →
    kindCount .rightParen first + kindCount .interpolationEnd first ≤
      depth + kindCount .leftParen first
  closed_eq : kindCount .rightParen ts + kindCount .interpolationEnd ts =
    depth + kindCount .leftParen ts

instance (depth : Nat) (ts : List Token) : Decidable (ClosesParens depth ts) :=
  decidable_of_iff
    ((∀ first ∈ ts.inits, kindCount .rightParen first + kindCount .interpolationEnd first ≤
        depth + kindCount .leftParen first) ∧
      kindCount .rightParen ts + kindCount .interpolationEnd ts = depth + kindCount .leftParen ts)
    ⟨fun h => ⟨fun first hfirst => h.1 first ((List.mem_inits ..).mpr hfirst), h.2⟩,
      fun h => ⟨fun first hfirst => h.closed_le first ((List.mem_inits ..).mp hfirst), h.closed_eq⟩⟩

/-- The number of parentheses that a token of this kind opens. -/
def Kind.parensOpened : Kind → Nat
  | .leftParen => 1
  | _ => 0

/-- The number of parentheses that a token of this kind closes. -/
def Kind.parensClosed : Kind → Nat
  | .rightParen | .interpolationEnd => 1
  | _ => 0

theorem Kind.parens_of_isOrdinary {kind : Kind} (h : kind.isOrdinary = true) :
    kind.parensOpened = 0 ∧ kind.parensClosed = 0 := by
  cases kind <;> first | exact ⟨rfl, rfl⟩ | cases h

theorem kindCount_cons (kind : Kind) (t : Token) (ts : List Token) :
    kindCount kind (t :: ts) = (if t.kind = kind then 1 else 0) + kindCount kind ts := by
  rw [← List.singleton_append, kindCount_append, kindCount_singleton]

private theorem closings_cons (t : Token) (ts : List Token) :
    kindCount .rightParen (t :: ts) + kindCount .interpolationEnd (t :: ts) =
      t.kind.parensClosed + (kindCount .rightParen ts + kindCount .interpolationEnd ts) := by
  have hkind : ∀ kind : Kind, kind.parensClosed =
      (if kind = .rightParen then 1 else 0) + if kind = .interpolationEnd then 1 else 0 := by
    intro kind
    cases kind <;> rfl
  rw [kindCount_cons, kindCount_cons, hkind]
  omega

private theorem openings_cons (t : Token) (ts : List Token) :
    kindCount .leftParen (t :: ts) = t.kind.parensOpened + kindCount .leftParen ts := by
  have hkind : ∀ kind : Kind, kind.parensOpened = if kind = .leftParen then 1 else 0 := by
    intro kind
    cases kind <;> rfl
  rw [kindCount_cons, hkind]

theorem ClosesParens.parensClosed_le {depth : Nat} {t : Token} {ts : List Token}
    (h : ClosesParens depth (t :: ts)) : t.kind.parensClosed ≤ depth + t.kind.parensOpened := by
  have hle := h.closed_le [t] ⟨ts, rfl⟩
  rw [closings_cons, openings_cons] at hle
  simp only [kindCount, List.countP_nil] at hle
  omega

theorem ClosesParens.tail {depth depth' : Nat} {t : Token} {ts : List Token}
    (h : ClosesParens depth (t :: ts))
    (hdepth : depth' + t.kind.parensClosed = depth + t.kind.parensOpened) :
    ClosesParens depth' ts where
  closed_le first hfirst := by
    have hle := h.closed_le (t :: first) (List.cons_prefix_cons.mpr ⟨rfl, hfirst⟩)
    rw [closings_cons, openings_cons] at hle
    omega
  closed_eq := by
    have heq := h.closed_eq
    rw [closings_cons, openings_cons] at heq
    omega

theorem Kind.parensClosed_eq_zero_or (kind : Kind) :
    kind.parensClosed = 0 ∨ kind.parensOpened = 0 := by
  cases kind <;> first | exact .inl rfl | exact .inr rfl

namespace Lexer

-- ---------------------------------------------------------------------------
-- Two lexers side by side
-- ---------------------------------------------------------------------------

/-- What stands before the code of an interpolation, nearest first. -/
def interpolationOpening : List Char := ['(', '\\', '"']

/-- What stands behind it. -/
def interpolationClosing : List Char := [')', '"']

theorem stops_closing : Stops interpolationClosing := stops_paren ['"']

/-- The second lexer stands where the first one does, in code that the first one reads alone and the
second one inside an interpolation. -/
structure Inside (n : Nat) (l l' : Lexer) : Prop where
  before : l'.before = l.before ++ interpolationOpening
  rest : l'.rest = l.rest ++ interpolationClosing
  offset : l'.pos.offset = l.pos.offset + 3
  contexts : Context.Embeds n l.contexts l'.contexts
  angles : l.angles = .empty
  angles' : l'.angles = .empty

/-- The two lexers find the same lexeme. -/
structure SameLexeme (n n' : Nat) (x x' : Lexeme) : Prop where
  kind : x'.kind = x.kind
  length : x'.length = x.length
  contexts : Context.Embeds n' x.contexts x'.contexts
  angles : x.angles = .empty
  angles' : x'.angles = .empty
  parens : n' + x.kind.parensClosed = n + x.kind.parensOpened

variable {n : Nat} {l l' : Lexer} {x : Lexeme} {text : List Char} {cs' : List Context}

theorem Inside.advance (h : l.Inside n l') {k : Nat} (hk : k ≤ l.rest.length) :
    (l.advance k).Inside n (l'.advance k) where
  before := by
    simp only [advance_toCursor, Cursor.advance_before, h.before, h.rest,
      List.take_append_of_le_length hk, List.append_assoc]
  rest := by
    simp only [advance_toCursor, Cursor.advance_rest, h.rest, List.drop_append_of_le_length hk]
  offset := by
    simp only [advance_toCursor, Cursor.advance_pos, Pos.after_offset, h.offset, h.rest,
      List.take_append_of_le_length hk]
    omega
  contexts := h.contexts
  angles := h.angles
  angles' := h.angles'

theorem Inside.accept {n' : Nat} {x' : Lexeme} (h : l.Inside n l') (hx : SameLexeme n n' x x')
    (hlength : x.length ≤ l.rest.length) : (l.accept x).Inside n' (l'.accept x') := by
  have hcursor : (l.advance x.length).Inside n (l'.advance x'.length) := by
    rw [hx.length]
    exact h.advance hlength
  exact ⟨hcursor.before, hcursor.rest, hcursor.offset, hx.contexts, hx.angles, hx.angles'⟩

-- ---------------------------------------------------------------------------
-- Lexemes
-- ---------------------------------------------------------------------------

/-- What stands before the code is asked for nothing that the start of a source is not. -/
theorem precedesAlike_opening (before : List Char) :
    PrecedesAlike before (before ++ interpolationOpening) := by
  match before with
  | [] => exact ⟨rfl, rfl, rfl, rfl⟩
  | [c] => exact ⟨rfl, rfl, rfl, rfl⟩
  | c :: d :: before => exact ⟨rfl, rfl, rfl, rfl⟩

theorem followsAlike_closing (M : Matching) (index index' : Nat) :
    FollowsAlike M index index' [] interpolationClosing where
  stops := .nil
  stops' := stops_closing
  keyword := Word.actsAsKeyword_paren ['"']
  marks _ _ := .none

/-- The indexes from two places on, one by one. -/
def matchingFrom (start start' : Nat) : Matching where
  index i j := ∃ k, i = start + k ∧ j = start' + k
  unique := by
    rintro i j i' j' ⟨k, rfl, rfl⟩ ⟨k', rfl, rfl⟩
    omega

/-- Where a closing parenthesis is found in plain code, it is one of the code. -/
theorem rightParen_of_code (hcontext : l.context = .code) (hrest : l.rest = ')' :: text)
    (hx : l.lexeme = .ok x) : x.kind = .rightParen := by
  rw [lexeme_of_isCode (by rw [hcontext]; rfl)] at hx
  unfold codeLexeme at hx
  rw [hrest] at hx
  obtain rfl : l.closingParen = x := Except.ok.inj hx
  unfold closingParen
  rw [hcontext]
  rfl

/-- Without a less-than sign there are no angle brackets to remember. -/
theorem angles_eq_empty (hangles : l.angles = .empty) (hangle : '<' ∉ l.rest) (hx : l.lexeme = .ok x) :
    x.angles = .empty := by
  rcases angles_cases hx with hkeeps | ⟨c, text, -, hrest, hbracket, -, -⟩
  · exact hkeeps.angles_eq.trans hangles
  · have hnone : l.index ∉ l.angles.openers ∧ l.index ∉ l.angles.closers := by
      rw [hangles]
      exact ⟨List.not_mem_nil, List.not_mem_nil⟩
    obtain ⟨rfl, -⟩ := angleBracket?_of_not_mem hnone.1 hnone.2 hbracket
    exact absurd (hrest ▸ List.mem_cons_self ..) hangle

theorem Inside.beside (h : l.Inside n l')
    (hparen : l.rest.head? = some ')' → l.context = .code → 1 ≤ n) :
    Beside (matchingFrom l.index l'.index) l.rest [] interpolationClosing l l' where
  rest := (List.append_nil _).symm
  rest' := h.rest
  precedes := by
    rw [h.before]
    exact precedesAlike_opening _
  follows := followsAlike_closing ..
  index k _ := ⟨k, rfl, rfl⟩
  context := h.contexts.sameSort
  paren hhead := h.contexts.endsInterpolation_eq (hparen hhead)
  angles := by
    rw [h.angles, h.angles']
    exact .empty _

/-- Behind a lexeme of code the contexts still differ in the bottom only, with its parenthesis counted. -/
theorem embeds_of_code (h : Context.Embeds n l.contexts cs') (hcode : l.context.isCode = true)
    (hx : l.lexeme = .ok x) (hclosed : x.kind.parensClosed ≤ n) (pos : Pos) :
    ∃ n', Context.Embeds n' x.contexts (Context.behind x.kind pos cs') ∧
      n' + x.kind.parensClosed = n + x.kind.parensOpened := by
  rw [Context.behind_of_isCode (h.isCode_eq.trans hcode)]
  cases lexeme_cases hx with
  | eof | unknown => exact ⟨n, h, rfl⟩
  | leftParen => exact ⟨n + 1, h.enterParen hcode, rfl⟩
  | interpolationEnd hcontext => exact h.endInterpolation hcontext
  | rightParen _ hends => exact h.leaveParen hcode hends hclosed
  | @openingQuote text =>
    unfold openingQuote
    cases StringText.opensMultiline text <;> exact ⟨n, .string _ _ _ h, rfl⟩
  | ordinary _ _ hordinary =>
    obtain ⟨hopened, hclosed⟩ := Kind.parens_of_isOrdinary hordinary
    rw [Context.behindCode_of_isOrdinary hordinary, hopened, hclosed]
    exact ⟨n, h, rfl⟩
  | closingQuote hcontext | backslash hcontext | segment hcontext | interpolationParen hcontext =>
    rw [hcontext] at hcode
    cases hcode

/-- The same for a lexeme of a literal, where the parenthesis that begins an interpolation counts. -/
theorem embeds_of_literal (h : Context.Embeds n l.contexts cs') (hcode : l.context.isCode = false)
    (hx : l.lexeme = .ok x) (pos : Pos) :
    ∃ n', Context.Embeds n' x.contexts (Context.behind x.kind pos cs') ∧
      n' + x.kind.parensClosed = n + x.kind.parensOpened := by
  unfold Context.behind
  cases lexeme_cases hx with
  | @closingQuote multiline _ hcontext =>
    obtain ⟨o', hcontext', houter⟩ := h.of_string hcontext
    rw [hcontext']
    cases multiline <;> exact ⟨n, houter, rfl⟩
  | backslash hcontext =>
    obtain ⟨o', hcontext', -⟩ := h.of_string hcontext
    rw [hcontext']
    exact ⟨n, .interpolationStart _ o' h, rfl⟩
  | segment hcontext =>
    obtain ⟨o', hcontext', -⟩ := h.of_string hcontext
    rw [hcontext']
    exact ⟨n, h, rfl⟩
  | interpolationParen hcontext =>
    obtain ⟨o', hcontext', houter⟩ := h.of_interpolationStart hcontext
    rw [hcontext']
    exact ⟨n + 1, .interpolation 0 _ o' houter, rfl⟩
  | eof hcontext | interpolationEnd hcontext =>
    rw [hcontext] at hcode
    cases hcode
  | leftParen hcode' | rightParen hcode' | openingQuote hcode' | ordinary hcode' | unknown hcode' =>
    rw [hcode] at hcode'
    cases hcode'

/-- The two lexers find the same lexeme. -/
theorem Inside.lexeme (h : l.Inside n l') (hne : l.rest ≠ []) (hangle : '<' ∉ l.rest)
    (hx : l.lexeme = .ok x) (hclosed : x.kind.parensClosed ≤ n) :
    ∃ n' x', l'.lexeme = .ok x' ∧ SameLexeme n n' x x' := by
  have hparen : l.rest.head? = some ')' → l.context = .code → 1 ≤ n := by
    intro hhead hcontext
    obtain ⟨text, hrest⟩ := List.head?_eq_some_iff.mp hhead
    rw [rightParen_of_code hcontext hrest hx] at hclosed
    exact hclosed
  have hangle' : '<' ∉ l'.rest := by
    rw [h.rest, List.mem_append, not_or]
    exact ⟨hangle, by decide⟩
  obtain ⟨x', hx', hlike⟩ := (h.beside hparen).lexeme hne hx (lexeme_length_le hx fun _ _ => hne)
  obtain ⟨n', hcontexts, hparens⟩ : ∃ n', Context.Embeds n' x.contexts x'.contexts ∧
      n' + x.kind.parensClosed = n + x.kind.parensOpened := by
    rw [contexts_of_lexeme hx', hlike.kind]
    cases hcode : l.context.isCode with
    | true => exact embeds_of_code h.contexts hcode hx hclosed _
    | false => exact embeds_of_literal h.contexts hcode hx _
  exact ⟨n', x', hx', hlike.kind, hlike.length, hcontexts, angles_eq_empty h.angles hangle hx,
    angles_eq_empty h.angles' hangle' hx', hparens⟩

-- ---------------------------------------------------------------------------
-- Trivia
-- ---------------------------------------------------------------------------

section Trivia

variable {k k' b here : Lexer} {kind : Kind} {trailing leading : Trivia}

private theorem isEmpty_before_advance (hbefore : k.before ≠ []) (m : Nat) :
    (k.advance m).before.isEmpty = false := by
  rw [advance_toCursor, Cursor.advance_before, List.isEmpty_eq_false_iff]
  exact List.append_ne_nil_of_right_ne_nil _ hbefore

/-- The trivia behind a token and before the next one is one gap. -/
theorem gap_of_calls (hcode : k.context.isCode = true) (hbefore : k.before ≠ []) (hkind : kind ≠ .eof)
    (htrailing : k.takeTrailing kind = (.ok trailing, b))
    (hleading : b.takeLeading = (.ok leading, here)) :
    (Gap.ofText false false k.rest).openComment = false ∧
      here = k.advance (Gap.ofText false false k.rest).length ∧
      Trivia.endsInLineComment (Gap.ofText false false k.rest).pieces =
        Trivia.endsInLineComment (trailing ++ leading) := by
  unfold takeTrailing at htrailing
  rw [hcode, Bool.true_and, if_pos (bne_iff_ne.mpr hkind)] at htrailing
  obtain ⟨-, rfl, rfl⟩ := takeGap_ok_iff.mp htrailing
  unfold takeLeading at hleading
  rw [advance_context, hcode, if_pos rfl] at hleading
  obtain ⟨hopen, rfl, rfl⟩ := takeGap_ok_iff.mp hleading
  rw [isEmpty_before_advance hbefore] at hopen ⊢
  rw [List.isEmpty_eq_false_iff.mpr hbefore] at hopen ⊢
  have hgap := Gap.ofText_of_trailing k.rest
  refine ⟨by rw [hgap]; exact hopen, ?_, ?_⟩
  · rw [advance_advance, Gap.length_of_trailing k.rest]
    rfl
  · rw [Trivia.endsInLineComment_append_ofList, hgap]
    rfl

/-- A gap that ends is passed by the two calls on either side of it. -/
theorem calls_of_gap (hcode : k.context.isCode = true) (hbefore : k.before ≠ []) (hkind : kind ≠ .eof)
    (hopen : (Gap.ofText false false k.rest).openComment = false) :
    ∃ trailing b leading, k.takeTrailing kind = (.ok trailing, b) ∧
      b.takeLeading = (.ok leading, k.advance (Gap.ofText false false k.rest).length) := by
  rw [Gap.ofText_of_trailing k.rest] at hopen
  have hopen' : (Gap.ofText true false k.rest).openComment = false := by
    refine Bool.eq_false_iff.mpr fun htrue => ?_
    rw [Gap.openComment_of_trailing htrue] at hopen
    cases hopen
  have htrailing : k.takeTrailing kind = (.ok (Trivia.ofList (Gap.ofText true false k.rest).pieces),
      k.advance (Gap.ofText true false k.rest).length) := by
    unfold takeTrailing
    rw [hcode, Bool.true_and, if_pos (bne_iff_ne.mpr hkind), takeGap_ok_iff,
      List.isEmpty_eq_false_iff.mpr hbefore]
    exact ⟨hopen', rfl, rfl⟩
  have hleading : (k.advance (Gap.ofText true false k.rest).length).takeLeading =
      (.ok (Trivia.ofList
          (Gap.ofText false false (k.rest.drop (Gap.ofText true false k.rest).length)).pieces),
        k.advance (Gap.ofText false false k.rest).length) := by
    unfold takeLeading
    rw [advance_context, hcode, if_pos rfl, takeGap_ok_iff, isEmpty_before_advance hbefore,
      advance_advance, Gap.length_of_trailing k.rest]
    exact ⟨hopen, rfl, rfl⟩
  exact ⟨_, _, _, htrailing, hleading⟩

/-- Trivia leads the two lexers to the same place before the next lexeme. -/
def Meets (n : Nat) (l l' : Lexer) : Prop :=
  ∃ leading here leading' here', l.takeLeading = (.ok leading, here) ∧
    l'.takeLeading = (.ok leading', here') ∧ here.Inside n here'

/-- The gap at the two lexers is the same, unless a comment reaches the end of the code. -/
theorem Inside.gap (h : k.Inside n k') (hopen : (Gap.ofText false false k.rest).openComment = false)
    (hcomment : Trivia.endsInLineComment (Gap.ofText false false k.rest).pieces = true →
      (k.advance (Gap.ofText false false k.rest).length).rest ≠ []) :
    Gap.ofText false false k'.rest = Gap.ofText false false k.rest := by
  rw [h.rest]
  refine Gap.ofText_append_paren k.rest ['"'] hopen fun hends => ?_
  have hrest := hcomment hends
  rw [advance_toCursor, Cursor.advance_rest, ne_eq, List.drop_eq_nil_iff] at hrest
  omega

/-- The two lexers find the same trivia, whatever part of it each token holds. -/
theorem Inside.trivia (h : k.Inside n k') (hbefore : k.before ≠ []) (hkind : kind ≠ .eof)
    (htrailing : k.takeTrailing kind = (.ok trailing, b))
    (hleading : b.takeLeading = (.ok leading, here))
    (hcomment : Trivia.endsInLineComment (trailing ++ leading) = true → here.rest ≠ []) :
    ∃ trailing' b', k'.takeTrailing kind = (.ok trailing', b') ∧ b.Meets n b' := by
  have hsame : k'.context.isCode = k.context.isCode := h.contexts.isCode_eq
  cases hcode : k.context.isCode with
  | true =>
    obtain ⟨hopen, rfl, hends⟩ := gap_of_calls hcode hbefore hkind htrailing hleading
    have hgap := h.gap hopen (by rw [hends]; exact hcomment)
    have hbefore' : k'.before ≠ [] := by
      rw [h.before]
      exact List.append_ne_nil_of_right_ne_nil _ (by decide)
    obtain ⟨trailing', b', leading', htrailing', hleading'⟩ :=
      calls_of_gap (hsame.trans hcode) hbefore' hkind (by rw [hgap]; exact hopen)
    rw [hgap] at hleading'
    exact ⟨trailing', b', htrailing', leading, _, leading', _, hleading, hleading',
      h.advance (Gap.text_isPrefix ..).length_le⟩
  | false =>
    -- the text of a literal has no trivia
    have hnone : ∀ {m : Lexer}, m.context.isCode = false →
        m.takeTrailing kind = (.ok [], m) ∧ m.takeLeading = (.ok [], m) := by
      intro m hm
      unfold takeTrailing takeLeading
      rw [hm]
      exact ⟨rfl, rfl⟩
    obtain ⟨htrailing', hleading'⟩ := hnone (hsame.trans hcode)
    rw [(hnone hcode).1] at htrailing
    obtain ⟨-, rfl⟩ := Prod.mk.inj htrailing
    exact ⟨[], k', htrailing', [], k, [], k', (hnone hcode).2, hleading', h⟩

end Trivia

-- ---------------------------------------------------------------------------
-- Calls
-- ---------------------------------------------------------------------------

section Calls

variable {f : List Char} {m behind : Lexer} {t u eof : Token} {ts : List Token} {start : Trivia}

/-- A call hands out the same token, and the lexers behind it meet, unless a comment reaches the end
of the code. -/
theorem Meets.step {after : Lexer} (h : l.Meets n l') (hsource : l.InOrder f) (hangle : '<' ∉ l.rest)
    (hnext : l.next = (.ok t, behind)) (hkind : t.kind ≠ .eof) (hclosed : t.kind.parensClosed ≤ n)
    (hfollow : behind.next = (.ok u, after))
    (hcomment : u.kind = .eof → Trivia.endsInLineComment (t.trailing ++ u.leading) = false) :
    ∃ n' t' behind', l'.next = (.ok t', behind') ∧ t'.core = t.core.shift 3 ∧
      behind.Meets n' behind' ∧ n' + t.kind.parensClosed = n + t.kind.parensOpened := by
  obtain ⟨leading, here, leading', here', hleading, hleading', hinside⟩ := h
  obtain ⟨_, _, x, trailing, heq, hx, htrailing, rfl⟩ := next_ok_iff.mp hnext
  obtain ⟨-, rfl⟩ := Prod.mk.inj (hleading.symm.trans heq)
  have hhere := hsource.takeLeading hleading
  obtain ⟨hne, hpos⟩ := hhere.rest_ne_nil hx hkind
  have hlength := lexeme_length_le hx fun _ _ => hne
  have hangle' : '<' ∉ here.rest := by
    obtain ⟨k, hk⟩ := l.takeLeading_advance
    rw [hleading] at hk
    obtain rfl : here = l.advance k := hk
    exact fun hmem => hangle (List.mem_of_mem_drop hmem)
  obtain ⟨n', x', hx', hsame⟩ := hinside.lexeme hne hangle' hx hclosed
  have haccept := hinside.accept hsame hlength
  have hbefore : (here.accept x).before ≠ [] := by
    show (here.rest.take x.length).reverse ++ here.before ≠ []
    refine List.append_ne_nil_of_left_ne_nil ?_ _
    rw [ne_eq, List.reverse_eq_nil_iff, List.take_eq_nil_iff, not_or]
    exact ⟨Nat.ne_of_gt hpos, hne⟩
  obtain ⟨leading₂, here₂, y, trailing₂, hleading₂, hy, -, rfl⟩ := next_ok_iff.mp hfollow
  -- the trivia at hand ends before the code does, or the next token is the end
  have hrest : Trivia.endsInLineComment (trailing ++ leading₂) = true → here₂.rest ≠ [] := by
    intro hends
    have hykind : y.kind ≠ .eof := fun hykind => by
      rw [hcomment hykind] at hends
      cases hends
    have hbehind := hsource.step l.callStep_next
    rw [hnext] at hbehind
    exact ((hbehind.takeLeading hleading₂).rest_ne_nil hy hykind).1
  obtain ⟨trailing', behind', htrailing', hmeets⟩ :=
    haccept.trivia hbefore hkind htrailing hleading₂ hrest
  rw [← hsame.kind] at htrailing'
  refine ⟨n', _, behind', next_ok_iff.mpr ⟨leading', here', x', trailing', hleading', hx', htrailing',
    rfl⟩, ?_, hmeets, hsame.parens⟩
  simp only [Token.core, TokenCore.shift, hsame.kind, hsame.length, hinside.rest, hinside.offset,
    haccept.offset, List.take_append_of_le_length hlength]

/-- What calls hand out over the code alone, they hand out inside an interpolation. -/
theorem Meets.reads {last : Lexer} (h : l.Meets n l') (hsource : l.InOrder f) (hangle : '<' ∉ l.rest)
    (hreads : l.Reads ts m) (hnext : m.next = (.ok eof, last))
    (hparens : ClosesParens n ts)
    (hcomment : Trivia.endsInLineComment (triviaAtEnd start (ts ++ [eof])) = false) :
    ∃ us m', l'.Reads us m' ∧ us.map Token.core = ts.map (fun t => t.core.shift 3) ∧
      m.Meets 0 m' := by
  induction ts generalizing l l' n start with
  | nil =>
    obtain rfl := hreads.eq_of_nil
    obtain rfl : n = 0 := by simpa [kindCount] using hparens.closed_eq.symm
    exact ⟨[], l', .nil, rfl, h⟩
  | cons t ts ih =>
    obtain ⟨behind, hfirst, htkind, hrest⟩ := hreads.uncons
    have hclosed : t.kind.parensClosed ≤ n := by
      have hle := hparens.parensClosed_le
      rcases t.kind.parensClosed_eq_zero_or with hzero | hzero <;> omega
    obtain ⟨u, after, hfollow, hends⟩ : ∃ u after, behind.next = (.ok u, after) ∧
        (u.kind = .eof → Trivia.endsInLineComment (t.trailing ++ u.leading) = false) := by
      cases ts with
      | nil =>
        obtain rfl := hrest.eq_of_nil
        exact ⟨eof, last, hnext, fun _ => hcomment⟩
      | cons u ts =>
        obtain ⟨after, hu, hukind, -⟩ := hrest.uncons
        exact ⟨u, after, hu, fun heof => absurd heof hukind⟩
    obtain ⟨n', t', behind', hnext', hcore, hmeets, hdepth⟩ :=
      h.step hsource hangle hfirst htkind hclosed hfollow hends
    have hsource' := hsource.step l.callStep_next
    rw [hfirst] at hsource'
    have hangle' : '<' ∉ behind.rest := by
      obtain ⟨k, hk⟩ := l.next_advance
      rw [hfirst] at hk
      rw [show behind.rest = l.rest.drop k by rw [hk]; rfl]
      exact fun hmem => hangle (List.mem_of_mem_drop hmem)
    have hcomment' : Trivia.endsInLineComment (triviaAtEnd t.trailing (ts ++ [eof])) = false := by
      cases ts with
      | nil => exact hcomment
      | cons u ts => exact hcomment
    obtain ⟨us, m', hreads', hcores, hend⟩ :=
      ih hmeets hsource' hangle' hrest (hparens.tail hdepth) hcomment'
    have htkind' : t'.kind ≠ .eof := by
      have hsame : t'.kind = t.kind := congrArg TokenCore.kind hcore
      rwa [hsame]
    refine ⟨[t'] ++ us, m', (Reads.snoc .nil hnext' htkind').append hreads', ?_, hend⟩
    rw [List.singleton_append, List.map_cons, List.map_cons, hcore, hcores]

end Calls

-- ---------------------------------------------------------------------------
-- Around the code
-- ---------------------------------------------------------------------------

/-- A call for a lexeme of a literal, which has no trivia around it. -/
theorem next_of_literal {l : Lexer} {x : Lexeme} (hcode : l.context.isCode = false)
    (hx : l.lexeme = .ok x) (hcode' : (Context.innermost x.contexts).isCode = false) :
    l.next = (.ok ⟨x.kind, l.rest.take x.length, ⟨l.pos, (l.accept x).pos⟩, [], []⟩, l.accept x) := by
  have hleading : l.takeLeading = (.ok [], l) := by
    unfold takeLeading
    rw [hcode]
    rfl
  have htrailing : (l.accept x).takeTrailing x.kind = (.ok [], l.accept x) := by
    unfold takeTrailing
    rw [show (l.accept x).context.isCode = false from hcode']
    rfl
  exact next_ok_iff.mpr ⟨[], l, x, [], hleading, hx, htrailing, rfl⟩

/-- The code of an interpolation between quotes. -/
def interpolated (f : List Char) : List Char :=
  interpolationOpening.reverse ++ f ++ interpolationClosing

/-- The first two calls read the quote and the backslash, and the lexeme that the third one finds
leads into the code. -/
theorem exists_reads_opening (f : List Char) :
    ∃ quote backslash k, (ofText (interpolated f)).Reads [quote, backslash] k ∧
      quote.core = ⟨.quote, ['"'], 0, 1⟩ ∧ backslash.core = ⟨.backslash, ['\\'], 1, 2⟩ ∧
      k.context = .interpolationStart .origin ∧ k.rest = '(' :: (f ++ interpolationClosing) ∧
      k.pos.offset = 2 ∧
      (ofText f).Inside 0 (k.accept { k.plain .leftParen 1 with
        contexts := .interpolation 0 .origin :: k.contexts.tail }) := by
  have hfirst : (ofText (interpolated f)).next = (.ok ⟨.quote, ['"'], ⟨.origin, ⟨0, 1, 1⟩⟩, [], []⟩,
      (ofText (interpolated f)).accept
        ((ofText (interpolated f)).openingQuote ('\\' :: '(' :: (f ++ interpolationClosing)))) :=
    next_ok_iff.mpr ⟨[], _, _, [], takeGap_of_nothing rfl, rfl, rfl, rfl⟩
  generalize hk : (ofText (interpolated f)).accept
    ((ofText (interpolated f)).openingQuote ('\\' :: '(' :: (f ++ interpolationClosing))) = k at hfirst
  have hsecond : k.next = (.ok ⟨.backslash, ['\\'], ⟨⟨0, 1, 1⟩, ⟨0, 2, 2⟩⟩, [], []⟩,
      k.accept { k.plain .backslash 1 with
        contexts := .interpolationStart .origin :: k.contexts }) := by
    subst hk
    exact next_of_literal (x := { plain _ .backslash 1 with
      contexts := .interpolationStart .origin :: _ }) rfl rfl rfl
  refine ⟨_, _, _, (Reads.snoc .nil hfirst (by decide)).snoc hsecond (by decide), rfl, rfl, ?_⟩
  subst hk
  exact ⟨rfl, rfl, rfl, rfl, rfl, rfl, .code _ _, rfl, rfl⟩

/-- Only at the start of a source does a number sign and an exclamation mark make a line garbage. -/
theorem gap_atStart {f : List Char} (hbang : ¬ ['#', '!'] <+: f) :
    Gap.ofText false true f = Gap.ofText false false f := by
  have hstart : GapStart.ofText false true f = GapStart.ofText false false f := by
    unfold GapStart.ofText
    split
    · rfl
    · split
      · rfl
      · rfl
      · exact absurd ⟨_, rfl⟩ hbang
      · rfl
      · rfl
  cases hcase : GapStart.ofText false false f with
  | nothing => rw [Gap.ofText_of_nothing hcase, Gap.ofText_of_nothing (hstart.trans hcase)]
  | openComment => rw [Gap.ofText_of_openComment hcase, Gap.ofText_of_openComment (hstart.trans hcase)]
  | piece p => rw [Gap.ofText_of_piece hcase, Gap.ofText_of_piece (hstart.trans hcase)]

/-- The trivia at the start of the code is found behind the parenthesis of an interpolation, too. -/
theorem Inside.start {f : List Char} {k after : Lexer} {u : Token} (h : (ofText f).Inside 0 k)
    (hbang : ¬ ['#', '!'] <+: f) (hnext : (ofText f).next = (.ok u, after))
    (hcomment : u.kind = .eof → Trivia.endsInLineComment u.leading = false) :
    ∃ trailing b, k.takeTrailing .leftParen = (.ok trailing, b) ∧ (ofText f).Meets 0 b := by
  obtain ⟨leading, here, x, trailing, hleading, hx, -, rfl⟩ := next_ok_iff.mp hnext
  have hhere := (inOrder_ofText f).takeLeading hleading
  have hgap : (Gap.ofText false false f).openComment = false ∧
      leading = Trivia.ofList (Gap.ofText false false f).pieces ∧
      here = (ofText f).advance (Gap.ofText false false f).length := by
    rw [← gap_atStart hbang]
    exact takeGap_ok_iff.mp hleading
  obtain ⟨hopen, rfl, rfl⟩ := hgap
  have hsame : Gap.ofText false false k.rest = Gap.ofText false false f := by
    refine h.gap hopen fun hends => ?_
    have hkind : x.kind ≠ .eof := fun hkind => by
      have hnot := hcomment hkind
      rw [Trivia.endsInLineComment_ofList] at hnot
      exact absurd hends (Bool.eq_false_iff.mp hnot)
    exact (hhere.rest_ne_nil hx hkind).1
  have hcode : k.context.isCode = true := h.contexts.isCode_eq
  have hbefore : k.before ≠ [] := by
    rw [h.before]
    exact List.append_ne_nil_of_right_ne_nil _ (by decide)
  have hkind : Kind.leftParen ≠ .eof := by decide
  obtain ⟨trailing', b, leading', htrailing', hleading'⟩ :=
    calls_of_gap hcode hbefore hkind (by rw [hsame]; exact hopen)
  rw [hsame] at hleading'
  exact ⟨trailing', b, htrailing', _, _, leading', _, hleading, hleading',
    h.advance (Gap.text_isPrefix ..).length_le⟩

/-- Three calls lead into the code. -/
theorem exists_reads_into {f : List Char} {after : Lexer} {u : Token} (hbang : ¬ ['#', '!'] <+: f)
    (hnext : (ofText f).next = (.ok u, after))
    (hcomment : u.kind = .eof → Trivia.endsInLineComment u.leading = false) :
    ∃ ts b, (ofText (interpolated f)).Reads ts b ∧
      ts.map Token.core =
        [⟨.quote, ['"'], 0, 1⟩, ⟨.backslash, ['\\'], 1, 2⟩, ⟨.leftParen, ['('], 2, 3⟩] ∧
      (ofText f).Meets 0 b := by
  obtain ⟨quote, backslash, k, hreads, hquote, hbackslash, hcontext, hrest, hpos, hinside⟩ :=
    exists_reads_opening f
  obtain ⟨trailing, b, htrailing, hmeets⟩ := hinside.start hbang hnext hcomment
  have hleading : k.takeLeading = (.ok [], k) := by
    unfold takeLeading
    rw [hcontext]
    rfl
  have hlexeme : k.lexeme = .ok { k.plain .leftParen 1 with
      contexts := .interpolation 0 .origin :: k.contexts.tail } := by
    unfold lexeme
    rw [hcontext]
  have hparen := next_ok_iff.mpr ⟨[], k, _, trailing, hleading, hlexeme, htrailing, rfl⟩
  refine ⟨_, b, hreads.snoc hparen (by simp [plain]), ?_, hmeets⟩
  rw [List.map_append, List.map_cons, List.map_cons, hquote, hbackslash, List.map_singleton, Token.core,
    hinside.offset, hpos, hrest]
  rfl

/-- Behind the code, calls read the parenthesis that ends the interpolation, the quote that closes
the literal, and the end of the source. -/
theorem exists_reads_closing {l here : Lexer} {leading : Trivia} {o o' : Pos}
    (hleading : l.takeLeading = (.ok leading, here)) (hrest : here.rest = interpolationClosing)
    (hcontexts : here.contexts = [.interpolation 0 o, .string false o', .code]) :
    ∃ anchor quote eof k last, l.Reads [anchor, quote] k ∧ k.next = (.ok eof, last) ∧
      anchor.core = ⟨.interpolationEnd, [')'], here.pos.offset, here.pos.offset + 1⟩ ∧
      quote.core = ⟨.quote, ['"'], here.pos.offset + 1, here.pos.offset + 2⟩ ∧
      eof.core = ⟨.eof, [], here.pos.offset + 2, here.pos.offset + 2⟩ := by
  obtain ⟨⟨before, rest, index, pos⟩, contexts, angles, finished⟩ := here
  obtain rfl : rest = interpolationClosing := hrest
  obtain rfl : contexts = [.interpolation 0 o, .string false o', .code] := hcontexts
  have hanchor : l.next = (.ok ⟨.interpolationEnd, [')'], ⟨pos, pos.after [')']⟩, leading, []⟩,
      ⟨⟨')' :: before, ['"'], index + 1, pos.after [')']⟩, [.string false o', .code], angles,
        finished || false⟩) :=
    next_ok_iff.mpr ⟨leading, _, _, [], hleading, rfl, rfl, rfl⟩
  generalize hk : (⟨⟨')' :: before, ['"'], index + 1, pos.after [')']⟩, [.string false o', .code], angles,
    finished || false⟩ : Lexer) = k at hanchor
  have hquote : k.next = (.ok ⟨.quote, ['"'], ⟨pos.after [')'], pos.after [')', '"']⟩, [], []⟩,
      k.accept { k.plain .quote 1 with contexts := [.code] }) := by
    subst hk
    exact next_ok_iff.mpr ⟨[], _, _, [], rfl, rfl, takeGap_of_nothing rfl, rfl⟩
  generalize hm : k.accept { k.plain .quote 1 with contexts := [.code] } = m at hquote
  have heof : m.next = (.ok ⟨.eof, [], ⟨pos.after [')', '"'], pos.after [')', '"']⟩, [], []⟩,
      m.accept (m.plain .eof 0)) := by
    subst hm hk
    exact next_ok_iff.mpr ⟨[], _, _, [], takeGap_of_nothing rfl, rfl, rfl, rfl⟩
  exact ⟨_, _, _, m, _, (Reads.snoc .nil hanchor (by simp)).snoc hquote (by simp), heof,
    rfl, rfl, rfl⟩

/-- Where the code alone ends, calls lead out of the interpolation. -/
theorem Meets.exists_reads_out {f : List Char} {m m' last : Lexer} {eof : Token} (h : m.Meets 0 m')
    (hin : m.toCursor.IsIn f) (hnext : m.next = (.ok eof, last)) (hkind : eof.kind = .eof) :
    ∃ ts eof' k last', m'.Reads ts k ∧ k.next = (.ok eof', last') ∧ eof'.kind = .eof ∧
      (ts ++ [eof']).map Token.core =
        [⟨.interpolationEnd, [')'], byteLength f + 3, byteLength f + 4⟩,
          ⟨.quote, ['"'], byteLength f + 4, byteLength f + 5⟩,
          ⟨.eof, [], byteLength f + 5, byteLength f + 5⟩] := by
  obtain ⟨leading, here, leading', here', hleading, hleading', hplace⟩ := h
  obtain ⟨_, _, x, _, heq, hx, -, rfl⟩ := next_ok_iff.mp hnext
  obtain ⟨-, rfl⟩ := Prod.mk.inj (hleading.symm.trans heq)
  obtain ⟨hcode, hnil⟩ := at_end_of_kind_eof hx hkind
  obtain ⟨o, o', hcontexts⟩ := hplace.contexts.of_code hcode
  obtain ⟨anchor, quote, eof', k, last', hreads, hend, hanchor, hquote, heof⟩ :=
    exists_reads_closing hleading' (by rw [hplace.rest, hnil]; rfl) hcontexts
  have hoffset : here'.pos.offset = byteLength f + 3 := by
    obtain ⟨j, hj⟩ := m.takeLeading_advance
    rw [hleading] at hj
    obtain rfl : here = m.advance j := hj
    have hhere : (m.advance j).toCursor.IsIn f := hin.advance j
    have hsplit := hhere.split
    rw [hnil, List.append_nil] at hsplit
    rw [hplace.offset, hhere.pos_eq, hsplit]
    rfl
  refine ⟨_, eof', k, last', hreads, hend, congrArg TokenCore.kind heof, ?_⟩
  rw [hoffset] at hanchor hquote heof
  simp only [List.cons_append, List.nil_append, List.map_cons, List.map_nil, hanchor, hquote, heof]

end Lexer

open Lexer in
/-- **Code is read inside an interpolation as it is on its own.** A text without a less-than sign that
does not start with the mark of a script, whose tokens close the parentheses that they open and never
more, and that does not end in a line comment, has the same tokens between the quotes of a literal and
the parentheses of an interpolation, three bytes further on. -/
theorem interpolated_as_on_its_own {f : List Char} {ts : List Token} (h : tokens f = .ok ts)
    (hangle : '<' ∉ f) (hbang : ¬ ['#', '!'] <+: f) (hparens : ClosesParens 0 ts)
    (hcomment : Trivia.endsInLineComment (triviaAtEnd [] ts) = false) :
    ∃ us, tokens (['"', '\\', '('] ++ f ++ [')', '"']) = .ok us ∧
      us.map Token.core =
        [⟨.quote, ['"'], 0, 1⟩, ⟨.backslash, ['\\'], 1, 2⟩, ⟨.leftParen, ['('], 2, 3⟩] ++
          ts.dropLast.map (fun t => t.core.shift 3) ++
        [⟨.interpolationEnd, [')'], byteLength f + 3, byteLength f + 4⟩,
          ⟨.quote, ['"'], byteLength f + 4, byteLength f + 5⟩,
          ⟨.eof, [], byteLength f + 5, byteLength f + 5⟩] := by
  obtain ⟨init, eof, m, last, rfl, hreads, hnext, hkind⟩ := exists_reads_of_tokens h
  have hinit : ClosesParens 0 init := by
    refine ⟨fun first hfirst => hparens.closed_le first (hfirst.trans (List.prefix_append ..)), ?_⟩
    have heq := hparens.closed_eq
    rw [kindCount_append, kindCount_append, kindCount_append, kindCount_singleton, kindCount_singleton,
      kindCount_singleton, hkind] at heq
    exact heq
  obtain ⟨u, after, hfirst, hends⟩ : ∃ u after, (ofText f).next = (.ok u, after) ∧
      (u.kind = .eof → Trivia.endsInLineComment u.leading = false) := by
    cases init with
    | nil =>
      obtain rfl := hreads.eq_of_nil
      exact ⟨eof, last, hnext, fun _ => hcomment⟩
    | cons u init =>
      obtain ⟨after, hu, hukind, -⟩ := hreads.uncons
      exact ⟨u, after, hu, fun heof => absurd heof hukind⟩
  obtain ⟨before, b, hinto, hbefore, hmeets⟩ := exists_reads_into hbang hfirst hends
  obtain ⟨us, m', hthrough, hcores, hend⟩ :=
    hmeets.reads (inOrder_ofText f) hangle hreads hnext hinit hcomment
  obtain ⟨behind, eof', k, last', hout, hnext', hkind', hbehind⟩ :=
    hend.exists_reads_out (hreads.isIn (Cursor.isIn_ofText f)) hnext hkind
  refine ⟨_, tokens_of_reads ((hinto.append hthrough).append hout) hnext' hkind', ?_⟩
  rw [List.append_assoc, List.map_append, hbehind, List.map_append, hbefore, hcores,
    List.dropLast_concat]

/-- A call with a literal that holds an interpolation itself, and a comment behind it. -/
theorem interpolated_as_on_its_own_nested :
    ∃ ts us, tokens "f(\"a\\(b)\") /*c*/".toList = .ok ts ∧
      ts.map Token.kind = [.identifier, .leftParen, .quote, .stringSegment, .backslash, .leftParen,
        .identifier, .interpolationEnd, .quote, .rightParen, .eof] ∧
      tokens (['"', '\\', '('] ++ "f(\"a\\(b)\") /*c*/".toList ++ [')', '"']) = .ok us ∧
      us.map Token.core =
        [⟨.quote, ['"'], 0, 1⟩, ⟨.backslash, ['\\'], 1, 2⟩, ⟨.leftParen, ['('], 2, 3⟩] ++
          ts.dropLast.map (fun t => t.core.shift 3) ++
        [⟨.interpolationEnd, [')'], 19, 20⟩, ⟨.quote, ['"'], 20, 21⟩, ⟨.eof, [], 21, 21⟩] := by
  have hfacts : (tokens "f(\"a\\(b)\") /*c*/".toList).toOption.map (fun ts =>
      (ts.map Token.kind, decide (ClosesParens 0 ts), Trivia.endsInLineComment (triviaAtEnd [] ts))) =
        some ([.identifier, .leftParen, .quote, .stringSegment, .backslash, .leftParen,
          .identifier, .interpolationEnd, .quote, .rightParen, .eof], true, false) := by
    decide +kernel
  obtain ⟨ts, hts, hfacts⟩ := exists_ok_of_toOption_map hfacts
  obtain ⟨hkinds, hrest⟩ := Prod.mk.inj hfacts
  obtain ⟨hparens, hcomment⟩ := Prod.mk.inj hrest
  obtain ⟨us, hus, hcores⟩ :=
    interpolated_as_on_its_own hts (by decide) (by decide) (of_decide_eq_true hparens) hcomment
  exact ⟨ts, us, hts, hkinds, hus, hcores⟩

end SwiftColoring
