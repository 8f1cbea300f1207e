import SwiftColoring.Proofs.Neighbours

/-!
# Operators are bound by what stands beside them

The kind of an operator is decided by the characters beside it. These agree with the tokens and the
trivia there: the operator is bound on a side if the part on that side binds it. There is one
exception. An operator may end with an asterisk and a slash, which are taken for the end of a comment
by the operator behind it; as operators go on as long as they can, that one starts with a dot.

* `Operator.IsBound` — what the kind of an operator says of its two sides.
* `Lexer.isLeftBound_of_takesAll` — the characters before the cursor say what the last part does.
* `Lexer.exists_dot_of_stop` — behind an operator only one with a dot follows.
* `operators_are_bound_by_neighbours` — the whole statement.
-/

namespace SwiftColoring

/-- The kind of an operator of this text agrees with whether it is bound on its left and on its
right. -/
structure Operator.IsBound (kind : Kind) (text : List Char) (left right : Bool) : Prop where
  unspacedBinary : kind = .unspacedBinary → left = true ∧ right = true
  spacedBinary : kind = .spacedBinary → left = false ∧ right = false
  /-- Before its operand an operator is bound on its right alone. -/
  leads : kind = .prefixOperator ∨ kind = .prefixPeriod ∨ kind = .prefixAmpersand →
    left = false ∧ right = true
  /-- Behind its operand it is bound on its left alone. -/
  trails : kind = .postfixOperator → left = true ∧ right = false
  unwraps : kind = .exclamation ∨ kind = .postfixQuestion → left = true
  infixQuestion : kind = .infixQuestion → left = false
  dot : text = ['.'] → left = false → right = true → kind = .prefixPeriod

/-- The part is an operator that ends like a block comment. -/
def Part.endsLikeComment : Part → Bool
  | .piece _ => false
  | .lexeme kind text => kind.isOperator && ['*', '/'].isSuffixOf text

/-- The part directly before the text of the token, which stands behind other tokens. -/
def Token.partBefore? (before : List Token) (t : Token) : Option Part :=
  (partsOf before ++ t.leading.map Part.piece).getLast?

/-- The part directly behind the text of the token, which stands before other tokens. -/
def Token.partBehind? (t : Token) (behind : List Token) : Option Part :=
  (t.trailing.map Part.piece ++ partsOf behind).head?

/-- The token starts with a dot directly behind an operator that ends like a block comment. -/
def Token.IsExcepted (before : List Token) (t : Token) : Prop :=
  t.text.head? = some '.' ∧ (t.partBefore? before).any Part.endsLikeComment = true

/-- The kind of the token agrees with what stands directly before and behind its text. -/
structure Token.IsBoundBetween (before : List Token) (t : Token) (behind : List Token) : Prop where
  regular : ¬ t.IsExcepted before → Operator.IsBound t.kind t.text
    ((t.partBefore? before).any Part.bindsOnLeft) ((t.partBehind? behind).any Part.bindsOnRight)
  /-- The operator before it binds the token, but is taken for a comment. -/
  excepted : t.IsExcepted before → (t.partBefore? before).any Part.bindsOnLeft = true ∧
    Operator.IsBound t.kind t.text false ((t.partBehind? behind).any Part.bindsOnRight)

/-- An operator without a kind of its own is called after its two sides. -/
theorem isBound_boundKind {text : List Char} (hdot : text ≠ ['.']) (left right : Bool) :
    Operator.IsBound (Operator.boundKind left right) text left right := by
  cases left <;> cases right
  all_goals constructor <;> simp [Operator.boundKind, hdot]

theorem isBound_kind {text : List Char} {left right : Bool}
    (hquestion : text = ['?'] → left = false) :
    Operator.IsBound (Operator.kind text left right) text left right := by
  unfold Operator.kind
  split
  · constructor <;> simp
  · constructor <;> simp
  · cases left <;> cases right
    all_goals constructor <;> simp
  · rw [hquestion rfl]
    constructor <;> simp
  · split
    · rename_i hleft
      rw [hleft]
      constructor <;> simp
    · exact isBound_boundKind (by decide) left right
  · split
    · rename_i hleads
      rw [Bool.and_eq_true, Bool.not_eq_true'] at hleads
      rw [hleads.1, hleads.2]
      constructor <;> simp
    · exact isBound_boundKind (by decide) left right
  · exact isBound_boundKind ‹_› left right

theorem isBound_postfixQuestion (right : Bool) :
    Operator.IsBound .postfixQuestion ['?'] true right := by
  constructor <;> simp

namespace Lexer

variable {source : List Char} {k l m : Lexer} {q : Part} {parts : List Part} {kind : Kind}
  {text : List Char}

-- ---------------------------------------------------------------------------
-- How an operator is cut off
-- ---------------------------------------------------------------------------

/-- How an operator is cut off: a question mark that follows its operand, or what operator characters
there are. -/
inductive OperatorCase (l : Lexer) (kind : Kind) (text : List Char) (m : Lexer) : Prop where
  | question {rest : List Char} (hrest : l.rest = '?' :: rest) (hkind : kind = .postfixQuestion)
      (htext : text = ['?']) (hleft : Operator.isLeftBound l.before = true)
  | other {c : Char} {rest : List Char} (hrest : l.rest = c :: rest)
      (hc : c = '.' ∨ isOperatorChar c = true) (hangle : l.angleBracket? c rest = none)
      (hkind : kind =
        Operator.kind text (Operator.isLeftBound l.before) (Operator.isRightBound m.rest))
      (htext : text.head? = some c) (hquestion : c = '?' → Operator.isLeftBound l.before = false)

theorem operatorCase_of_takes (h : l.Takes (.lexeme kind text) m) (hkind : kind.isOperator = true) :
    l.context.isCode = true ∧ m.context.isCode = true ∧ OperatorCase l kind text m := by
  cases h with
  | @lexeme x hstop hx =>
    cases finds_of_lexeme hx with
    | postfixQuestion hcode hrest hleft =>
      refine ⟨hcode, hcode, .question hrest rfl ?_ hleft⟩
      rw [hrest]
      rfl
    | operator hcode hrest hlength hc hangle hquestion =>
      refine ⟨hcode, hcode, .other hrest hc hangle rfl ?_ hquestion⟩
      rw [hrest]
      show (List.take _ _).head? = _
      rw [hlength, Nat.add_comm, List.take_succ_cons]
      rfl
    | number =>
      rcases kind_of_number rfl with ⟨base, hnumber⟩ | hnumber
      all_goals
        rw [plain, hnumber] at hkind
        cases hkind
    | word =>
      rcases kind_of_word rfl with ⟨k, hword⟩ | hword | hword
      all_goals
        rw [wordLexeme, plain, hword] at hkind
        cases hkind
    | mark _ _ hmark =>
      unfold markKind? at hmark
      split at hmark <;> cases hmark <;> cases hkind
    | angleBracket _ _ hangle => rcases kind_of_angleBracket? hangle with rfl | rfl <;> cases hkind
    | closingQuote | openingQuote =>
      simp only [openingQuote, plain, quoteKind] at hkind
      split at hkind <;> cases hkind
    | _ => cases hkind

theorem OperatorCase.rest_ne_nil (h : OperatorCase l kind text m) : l.rest ≠ [] := by
  cases h with
  | question hrest | other hrest =>
    rw [hrest]
    exact List.cons_ne_nil _ _

/-- The kind of an operator agrees with the characters beside it. -/
theorem OperatorCase.isBound (h : OperatorCase l kind text m) :
    Operator.IsBound kind text (Operator.isLeftBound l.before) (Operator.isRightBound m.rest) := by
  cases h with
  | question _ hkind htext hleft =>
    rw [hkind, htext, hleft]
    exact isBound_postfixQuestion _
  | other _ _ _ hkind htext hquestion =>
    rw [hkind]
    refine isBound_kind fun hone => hquestion ?_
    rw [hone] at htext
    exact (Option.some.inj htext).symm

/-- An operator goes on as long as it can. -/
theorem isOperatorChar_of_stop {c : Char} {rest : List Char}
    (hstop : isOperatorChar c = false ∨ (c = '/' ∧ rest.head?.any ['/', '*'].contains = true) ∨
      (c = '>' ∧ l.angles.closers.contains l.index = true))
    (hstart : GapStart.ofText false l.before.isEmpty l.rest = .nothing) (hrest : l.rest = c :: rest)
    (hangle : c = '>' → l.angleBracket? c rest = none) : isOperatorChar c = false := by
  rw [hrest] at hstart
  rcases hstop with hchar | ⟨rfl, hcomment⟩ | ⟨rfl, hcloses⟩
  · exact hchar
  · rw [not_comment_of_stop hstart] at hcomment
    cases hcomment
  · have hnone := hangle rfl
    rw [angleBracket?, if_neg (by decide), beq_self_eq_true, hcloses, Bool.true_and, if_pos rfl] at hnone
    cases hnone

/-- Behind an operator only one with a dot follows. -/
theorem exists_dot_of_stop
    (hstop : ∀ c rest, l.rest = c :: rest → isOperatorChar c = false ∨
      (c = '/' ∧ rest.head?.any ['/', '*'].contains = true) ∨
        (c = '>' ∧ l.angles.closers.contains l.index = true))
    (hstart : GapStart.ofText false l.before.isEmpty l.rest = .nothing)
    (h : OperatorCase l kind text m) : text.head? = some '.' := by
  cases h with
  | question hrest =>
    have hchar := isOperatorChar_of_stop (hstop _ _ hrest) hstart hrest fun h => absurd h (by decide)
    cases hchar
  | other hrest hc hangle _ htext =>
    have hchar := isOperatorChar_of_stop (hstop _ _ hrest) hstart hrest fun _ => hangle
    rcases hc with rfl | hc
    · exact htext
    · rw [hchar] at hc
      cases hc

-- ---------------------------------------------------------------------------
-- The characters before an operator
-- ---------------------------------------------------------------------------

theorem exists_endCase (h : (ofText source).TakesAll parts l) (hcode : l.context.isCode = true)
    (hrest : l.rest ≠ []) (hlast : parts.getLast? = some q) :
    ∃ k, (ofText source).TakesAll parts.dropLast k ∧ k.InOrder source ∧ k.Takes q l ∧
      EndCase k q l := by
  obtain ⟨k, hbefore, hq⟩ := h.exists_last hlast
  have hk := hbefore.inOrder (inOrder_ofText source)
  exact ⟨k, hbefore, hk, hq, endCase_of_takes hq hk hcode hrest⟩

theorem before_of_nil (h : (ofText source).TakesAll parts l) (hnil : parts.getLast? = none) :
    l.before = [] := by
  rw [List.getLast?_eq_none_iff.mp hnil] at h
  cases h
  rfl

/-- Behind an asterisk no token starts with a slash: an operator would have gone on. -/
theorem head?_behind_star (h : (ofText source).TakesAll parts l) (hcode : l.context.isCode = true)
    (hstart : GapStart.ofText false l.before.isEmpty l.rest = .nothing)
    (hstar : l.before.head? = some '*') : l.rest.head? ≠ some '/' := by
  intro hslash
  obtain ⟨rest, hrest⟩ := List.head?_eq_some_iff.mp hslash
  cases hlast : parts.getLast? with
  | none =>
    rw [before_of_nil h hlast] at hstar
    cases hstar
  | some q =>
    obtain ⟨k, -, -, -, hend⟩ := exists_endCase h hcode (by simp [hrest]) hlast
    cases hend with
    | char hbefore _ hne =>
      rw [hbefore] at hstar
      exact hne (Option.some.inj hstar)
    | blockComment hbefore =>
      rw [hbefore] at hstar
      cases hstar
    | line hends => cases hends '/' hslash
    | operator _ _ _ _ _ hstop =>
      have hchar := isOperatorChar_of_stop (hstop _ _ hrest) hstart hrest fun h => absurd h (by decide)
      cases hchar

theorem endsLikeComment_concat (hkind : kind.isOperator = true) (init : List Char) (d : Char) :
    (Part.lexeme kind (init ++ [d])).endsLikeComment = (d == '/' && init.getLast? == some '*') := by
  rw [Part.endsLikeComment, hkind, Bool.true_and, List.isSuffixOf, List.reverse_append,
    ← List.head?_reverse]
  have hslash : ('/' == d) = (d == '/') := BEq.comm
  show ('/' == d && ['*'].isPrefixOf init.reverse) = _
  rw [hslash]
  cases init.reverse with
  | nil => rfl
  | cons e rest =>
    have hstar : ('*' == e) = (e == '*') := BEq.comm
    show (d == '/' && ('*' == e && true)) = (d == '/' && e == '*')
    rw [hstar, Bool.and_true]

theorem before_of_endsLikeComment (h : k.Takes q l) (hq : q.endsLikeComment = true) :
    ∃ rest, l.before = '/' :: '*' :: rest := by
  cases q with
  | piece => cases hq
  | lexeme kind text =>
    obtain ⟨-, hsuffix⟩ := Bool.and_eq_true_iff.mp hq
    obtain ⟨init, rfl⟩ := List.isSuffixOf_iff_suffix.mp hsuffix
    refine ⟨init.reverse ++ k.before, ?_⟩
    rw [h.before_eq]
    show (init ++ ['*', '/']).reverse ++ k.before = _
    rw [List.reverse_append, List.append_assoc]
    rfl

theorem bindsOnLeft_of_isOperator (hkind : kind.isOperator = true) (text : List Char) :
    (Part.lexeme kind text).bindsOnLeft = true := by
  cases kind <;> first | rfl | cases hkind

/-- A token does not start where a line has been taken to its end. -/
theorem not_line_of_stop (hstart : GapStart.ofText false l.before.isEmpty l.rest = .nothing)
    (hrest : l.rest ≠ []) : ¬ ∀ c ∈ l.rest.head?, isLineBreak c = true := by
  intro hends
  obtain ⟨c, rest, hcons⟩ := List.exists_cons_of_ne_nil hrest
  obtain ⟨unit, n, -, hpiece⟩ := exists_start_of_isLineBreak (hends c (by rw [hcons]; rfl))
    l.before.isEmpty rest
  rw [← hcons, hstart] at hpiece
  cases hpiece

/-- A slash alone is no end of a comment, and neither is one behind anything but an asterisk. -/
theorem isLeftBound_of_operator (h : (ofText source).TakesAll parts k)
    (htakes : k.Takes (.lexeme kind text) l) (hk : k.InOrder source) (hkind : kind.isOperator = true)
    (hcode : k.context.isCode = true)
    (hstart : GapStart.ofText false k.before.isEmpty k.rest = .nothing)
    (hchars : ∀ c ∈ text, isOperatorChar c = true ∨ c = '.') :
    Operator.isLeftBound l.before = !(Part.lexeme kind text).endsLikeComment := by
  have hne : text ≠ [] := by
    refine htakes.text_ne_nil hk fun _ heof => ?_
    cases heof
    cases hkind
  obtain ⟨init, d, rfl⟩ := List.eq_nil_or_concat text |>.resolve_left hne
  rw [List.concat_eq_append] at *
  have hbefore : l.before = d :: (init.reverse ++ k.before) := by
    rw [htakes.before_eq]
    show (init ++ [d]).reverse ++ k.before = _
    rw [List.reverse_append, List.append_assoc]
    rfl
  rw [hbefore]
  by_cases hslash : d = '/'
  · subst hslash
    show ((init.reverse ++ k.before).head? != some '*') = _
    rw [endsLikeComment_concat hkind, List.head?_append, List.head?_reverse]
    cases hlast : init.getLast? with
    | none =>
      -- the slash is all there is, and no asterisk stands before it
      have hfirst : k.rest.head? = some '/' := by
        rw [htakes.rest_eq, List.getLast?_eq_none_iff.mp hlast]
        rfl
      exact bne_iff_ne.mpr fun hstar => head?_behind_star h hcode hstart hstar hfirst
    | some e => rfl
  · rw [endsLikeComment_concat hkind, beq_false_of_ne hslash]
    exact (bound_of_isOperatorChar (hchars d (by simp)).symm hslash _).1

/-- The characters before the cursor say whether the part before it binds an operator. -/
theorem isLeftBound_of_takesAll (h : (ofText source).TakesAll parts l) (hcode : l.context.isCode = true)
    (hstart : GapStart.ofText false l.before.isEmpty l.rest = .nothing) (hrest : l.rest ≠ []) :
    Operator.isLeftBound l.before =
      (parts.getLast?.any Part.bindsOnLeft && !parts.getLast?.any Part.endsLikeComment) := by
  cases hlast : parts.getLast? with
  | none =>
    rw [before_of_nil h hlast]
    rfl
  | some q =>
    obtain ⟨k, hbefore, hk, htakes, hend⟩ := exists_endCase h hcode hrest hlast
    show _ = (q.bindsOnLeft && !q.endsLikeComment)
    cases hend with
    | char hchar hslash _ hbinds =>
      have hlike : q.endsLikeComment = false := by
        refine Bool.eq_false_iff.mpr fun hlike => ?_
        obtain ⟨rest, hcomment⟩ := before_of_endsLikeComment htakes hlike
        rw [hchar] at hcomment
        exact hslash (List.cons.inj hcomment).1
      rw [hchar, hbinds, hlike, Bool.not_false, Bool.and_true]
    | blockComment hcomment hbinds =>
      rw [hcomment, hbinds]
      rfl
    | line hends => exact absurd hends (not_line_of_stop hstart hrest)
    | @operator kind text hq hkind hcode' hstart' hchars =>
      subst hq
      rw [isLeftBound_of_operator hbefore htakes hk hkind hcode' hstart' hchars,
        bindsOnLeft_of_isOperator hkind, Bool.true_and]

/-- The operator behind one that ends like a comment starts with a dot. -/
theorem head?_behind_endsLikeComment (h : (ofText source).TakesAll parts l)
    (hlike : parts.getLast?.any Part.endsLikeComment = true) (htakes : l.Takes (.lexeme kind text) m)
    (hcode : l.context.isCode = true) (hoperator : OperatorCase l kind text m) :
    text.head? = some '.' ∧ parts.getLast?.any Part.bindsOnLeft = true := by
  have hstart := htakes.stop_of_lexeme hcode
  obtain ⟨q, hlast, hq⟩ := (Option.any_eq_true ..).mp hlike
  obtain ⟨k, -, -, hbefore, hend⟩ := exists_endCase h hcode hoperator.rest_ne_nil hlast
  obtain ⟨rest, hcomment⟩ := before_of_endsLikeComment hbefore hq
  have hbinds : q.bindsOnLeft = true := by
    cases q with
    | piece => cases hq
    | lexeme kind text => exact bindsOnLeft_of_isOperator (Bool.and_eq_true_iff.mp hq).1 text
  rw [hlast]
  refine ⟨?_, hbinds⟩
  cases hend with
  | char hchar hslash =>
    rw [hcomment] at hchar
    exact absurd (List.cons.inj hchar).1.symm hslash
  | blockComment _ hnot =>
    rw [hbinds] at hnot
    cases hnot
  | line hends => exact absurd hends (not_line_of_stop hstart hoperator.rest_ne_nil)
  | operator _ _ _ _ _ hstop => exact exists_dot_of_stop hstop hstart hoperator

/-- The characters behind the cursor say whether the next part binds an operator. -/
theorem isRightBound_of_takesAll (h : l.TakesAll parts m) (hend : m.rest = [])
    (hcode : l.context.isCode = true) :
    Operator.isRightBound l.rest = parts.head?.any Part.bindsOnRight := by
  cases h with
  | nil =>
    rw [hend]
    rfl
  | cons hfirst => exact isRightBound_of_takes hfirst hcode

end Lexer

/-- **Operators are bound by what stands beside them.** The kind of every operator of a source agrees
with the parts directly before and behind it: it is bound on a side if the part there binds it, be it
a token or a piece of trivia, and not where the source starts or ends. The one exception is an
operator with a dot directly behind another operator whose last characters are those that end a
comment: on its left it counts as not bound. -/
theorem operators_are_bound_by_neighbours {source : List Char} {ts : List Token}
    (h : tokens source = .ok ts) :
    ∀ before t behind, ts = before ++ t :: behind → t.kind.isOperator = true →
      t.IsBoundBetween before behind := by
  rintro before t behind rfl hkind
  obtain ⟨last, htakes, hend⟩ := Lexer.takesAll_of_tokens h
  have hparts : partsOf (before ++ t :: behind) = (partsOf before ++ t.leading.map .piece) ++
      .lexeme t.kind t.text :: (t.trailing.map .piece ++ partsOf behind) := by
    simp [partsOf, Token.parts]
  rw [hparts] at htakes
  obtain ⟨l, hbefore, hrest⟩ := htakes.exists_between
  cases hrest with
  | @cons _ m _ _ _ htext hbehind =>
    obtain ⟨hcode, hcode', hoperator⟩ := Lexer.operatorCase_of_takes htext hkind
    have hleft : Operator.isLeftBound l.before = ((t.partBefore? before).any Part.bindsOnLeft &&
        !(t.partBefore? before).any Part.endsLikeComment) :=
      Lexer.isLeftBound_of_takesAll hbefore hcode (htext.stop_of_lexeme hcode) hoperator.rest_ne_nil
    have hright : Operator.isRightBound m.rest = (t.partBehind? behind).any Part.bindsOnRight :=
      Lexer.isRightBound_of_takesAll hbehind hend hcode'
    have hbound := hoperator.isBound
    rw [hleft, hright] at hbound
    by_cases hlike : (t.partBefore? before).any Part.endsLikeComment = true
    · obtain ⟨hdot, hbinds⟩ := Lexer.head?_behind_endsLikeComment hbefore hlike htext hcode hoperator
      rw [hlike, Bool.not_true, Bool.and_false] at hbound
      exact ⟨fun hnot => absurd ⟨hdot, hlike⟩ hnot, fun _ => ⟨hbinds, hbound⟩⟩
    · rw [Bool.eq_false_iff.mpr hlike, Bool.not_false, Bool.and_true] at hbound
      exact ⟨fun _ => hbound, fun hexcepted => absurd hexcepted.2 hlike⟩

/-- Behind its operand a dot is a period, but the first one here follows what looks like the end of a
comment. -/
theorem operators_are_bound_by_neighbours_comment :
    ∃ ts, tokens "a+*/.x, -b!.y ? .c".toList = .ok ts ∧
      ((ts.filter fun t => t.kind.isOperator).map fun t => (t.kind, t.text)) =
        [(.unspacedBinary, "+*/".toList), (.prefixPeriod, ".".toList), (.prefixOperator, "-".toList),
          (.exclamation, "!".toList), (.period, ".".toList), (.infixQuestion, "?".toList),
          (.prefixPeriod, ".".toList)] ∧
      ∀ before t behind, ts = before ++ t :: behind → t.kind.isOperator = true →
        t.IsBoundBetween before behind := by
  have hkinds : (tokens "a+*/.x, -b!.y ? .c".toList).toOption.map (fun ts =>
      (ts.filter fun t => t.kind.isOperator).map fun t => (t.kind, t.text)) =
        some [(.unspacedBinary, "+*/".toList), (.prefixPeriod, ".".toList),
          (.prefixOperator, "-".toList), (.exclamation, "!".toList), (.period, ".".toList),
          (.infixQuestion, "?".toList), (.prefixPeriod, ".".toList)] := by
    decide +kernel
  obtain ⟨ts, hts, hkinds⟩ := exists_ok_of_toOption_map hkinds
  exact ⟨ts, hts, hkinds, operators_are_bound_by_neighbours hts⟩

end SwiftColoring
