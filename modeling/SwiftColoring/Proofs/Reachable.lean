import SwiftColoring.Proofs.Lossless
import SwiftColoring.Proofs.Reads

/-!
# What calls can lead to

A lexer that has been called any number of times, past failures and past the end of the source,
stands in the source, counts truly, and has contexts that nest as they should: plain code at the
bottom, then literals and interpolations by turns. This is kept by every way a call can end, also
where a failure leaves a lexeme behind whose trivia could not be read. From such a lexer, no read by
an index leaves the source.

* `Context.StandsIn` — which context may be opened directly inside which.
* `Lexer.CallStep`, `Lexer.callStep_next` — every way a call can end.
* `ContextsNest.lexeme` — a lexeme keeps the contexts nested.
* `Lexer.InOrder.step` — a call keeps the invariant.
* `Lexer.InOrder.readsInside` — a call reads nothing out of range.
* `reachable_in_order` — the whole statement.
-/

namespace SwiftColoring

-- ---------------------------------------------------------------------------
-- Contexts that nest
-- ---------------------------------------------------------------------------

/-- The first context may be opened directly inside the second: a literal inside code, and an
interpolation inside the literal that it belongs to, whose place it remembers. -/
def Context.StandsIn : Context → Context → Prop
  | .string .., .code | .string .., .interpolation .. => True
  | .interpolation _ opening, .string _ opening' => opening = opening'
  | .interpolationStart opening, .string _ opening' => opening = opening'
  | _, _ => False

/-- The places where the literals among the contexts were opened, innermost first. -/
def Context.literals (contexts : List Context) : List Pos :=
  contexts.filterMap fun
    | .string _ opening => some opening
    | _ => none

/-- A literal was opened at the place by a quote mark before the index. -/
def OpenedBefore (source : List Char) (index : Nat) (opening : Pos) : Prop :=
  ∃ i, i < index ∧ source[i]? = some '"' ∧ opening = Pos.behind (source.take i)

/-- The contexts nest, up to an index of the source. -/
structure ContextsNest (source : List Char) (index : Nat) (contexts : List Context) : Prop where
  /-- Plain code is at the bottom. -/
  bottom : contexts.getLast? = some .code
  nested : contexts.IsChain Context.StandsIn
  quotes : ∀ opening ∈ Context.literals contexts, OpenedBefore source index opening
  /-- Literals were opened in the order in which they nest. -/
  inTurn : (Context.literals contexts).Pairwise fun inner outer => outer.offset < inner.offset

namespace ContextsNest

variable {source : List Char} {index : Nat} {c d : Context} {contexts outer : List Context}

theorem code (source : List Char) (index : Nat) : ContextsNest source index [.code] where
  bottom := rfl
  nested := .singleton _
  quotes := by simp [Context.literals]
  inTurn := .nil

theorem mono {index' : Nat} (h : ContextsNest source index contexts) (hle : index ≤ index') :
    ContextsNest source index' contexts where
  bottom := h.bottom
  nested := h.nested
  quotes opening hmem := by
    obtain ⟨i, hi, hrest⟩ := h.quotes opening hmem
    exact ⟨i, Nat.lt_of_lt_of_le hi hle, hrest⟩
  inTurn := h.inTurn

theorem ne_nil (h : ContextsNest source index contexts) : contexts ≠ [] := by
  rintro rfl
  cases h.bottom

/-- A context other than plain code stands in another one. -/
theorem exists_outer (h : ContextsNest source index (c :: outer)) (hc : c ≠ .code) :
    ∃ d rest, outer = d :: rest ∧ c.StandsIn d := by
  cases outer with
  | nil => exact absurd (Option.some.inj h.bottom) hc
  | cons d rest => exact ⟨d, rest, rfl, (List.isChain_cons_cons.mp h.nested).1⟩

/-- What is left when the innermost context is closed. -/
theorem tail (h : ContextsNest source index (c :: outer)) (hc : c ≠ .code) :
    ContextsNest source index outer := by
  obtain ⟨d, rest, rfl, -⟩ := h.exists_outer hc
  have hsub : (Context.literals (d :: rest)).Sublist (Context.literals (c :: d :: rest)) :=
    (List.sublist_cons_self ..).filterMap _
  exact ⟨by rw [← h.bottom, List.getLast?_cons_cons], h.nested.tail,
    fun opening hmem => h.quotes opening (hsub.subset hmem), h.inTurn.sublist hsub⟩

/-- A context that is no literal is opened where it may be. -/
theorem push (h : ContextsNest source index (d :: outer)) (hstands : c.StandsIn d)
    (hliteral : Context.literals [c] = []) : ContextsNest source index (c :: d :: outer) := by
  have hsame : Context.literals (c :: d :: outer) = Context.literals (d :: outer) := by
    rw [← List.singleton_append, Context.literals, List.filterMap_append]
    exact congrArg (· ++ Context.literals (d :: outer)) hliteral
  refine ⟨by rw [List.getLast?_cons_cons, h.bottom], h.nested.cons_cons hstands, ?_, ?_⟩
  · rw [hsame]
    exact h.quotes
  · rw [hsame]
    exact h.inTurn

/-- The innermost context is exchanged for one that may stand wherever it may. -/
theorem exchange {e : Context} (h : ContextsNest source index (c :: outer)) (hc : c ≠ .code)
    (hstands : ∀ d, c.StandsIn d → e.StandsIn d) (hliteral : Context.literals [e] = []) :
    ContextsNest source index (e :: outer) := by
  obtain ⟨d, rest, rfl, hcd⟩ := h.exists_outer hc
  exact (h.tail hc).push (hstands d hcd) hliteral

private theorem byteLength_take_lt {i j : Nat} (hij : i < j) (hj : j ≤ source.length) :
    byteLength (source.take i) < byteLength (source.take j) := by
  have hi : i < source.length := Nat.lt_of_lt_of_le hij hj
  have hsplit : source.take j = source.take i ++ (source.drop i).take (j - i) := by
    rw [← List.take_add, Nat.add_sub_cancel' (Nat.le_of_lt hij)]
  obtain ⟨n, hn⟩ : ∃ n, j - i = n + 1 := ⟨j - i - 1, by omega⟩
  rw [hsplit, List.drop_eq_getElem_cons hi, hn, List.take_succ_cons, byteLength_append,
    byteLength_cons]
  have hsize := source[i].utf8Size_pos
  omega

/-- A literal is opened in code by the quote mark at the index. -/
theorem pushLiteral {index' : Nat} (multiline : Bool) (h : ContextsNest source index contexts)
    (hcode : (Context.innermost contexts).isCode = true) (hquote : source[index]? = some '"')
    (hlt : index < index') :
    ContextsNest source index' (.string multiline (Pos.behind (source.take index)) :: contexts) := by
  obtain ⟨d, outer, rfl⟩ := List.exists_cons_of_ne_nil h.ne_nil
  have hindex : index ≤ source.length :=
    Nat.le_of_lt (List.getElem?_eq_some_iff.mp hquote).1
  refine ⟨by rw [List.getLast?_cons_cons, h.bottom], ?_, ?_, ?_⟩
  · refine h.nested.cons_cons ?_
    cases d with
    | code | interpolation => trivial
    | string | interpolationStart => cases hcode
  · intro opening hmem
    rcases List.mem_cons.mp hmem with rfl | hmem
    · exact ⟨index, hlt, hquote, rfl⟩
    · exact (h.mono (Nat.le_of_lt hlt)).quotes opening hmem
  · refine List.pairwise_cons.mpr ⟨fun opening hmem => ?_, h.inTurn⟩
    -- the literals around it were opened by marks before this one
    obtain ⟨i, hi, -, rfl⟩ := h.quotes opening hmem
    exact byteLength_take_lt hi hindex

end ContextsNest

-- ---------------------------------------------------------------------------
-- What a lexeme does to the contexts
-- ---------------------------------------------------------------------------

theorem Context.eq_cons_of_innermost {contexts : List Context} {c : Context}
    (h : Context.innermost contexts = c) (hc : c ≠ .code) : ∃ outer, contexts = c :: outer := by
  cases contexts with
  | nil => exact absurd h.symm hc
  | cons d outer => exact ⟨outer, congrArg (· :: outer) h⟩

theorem Context.isCode_enterParen (contexts : List Context) :
    (innermost (enterParen contexts)).isCode = (innermost contexts).isCode := by
  unfold enterParen
  split <;> rfl

theorem Context.isCode_leaveParen (contexts : List Context) :
    (innermost (leaveParen contexts)).isCode = (innermost contexts).isCode := by
  unfold leaveParen
  split <;> rfl

theorem ContextsNest.enterParen {source : List Char} {index : Nat} {contexts : List Context}
    (h : ContextsNest source index contexts) :
    ContextsNest source index (Context.enterParen contexts) := by
  unfold Context.enterParen
  split
  · exact h.exchange (by simp) (fun d hd => by cases d <;> exact hd) rfl
  · exact h

theorem ContextsNest.leaveParen {source : List Char} {index : Nat} {contexts : List Context}
    (h : ContextsNest source index contexts) :
    ContextsNest source index (Context.leaveParen contexts) := by
  unfold Context.leaveParen
  split
  · exact h.exchange (by simp) (fun d hd => by cases d <;> exact hd) rfl
  · exact h

namespace Lexer

variable {source : List Char} {l : Lexer} {x : Lexeme}

/-- Where an interpolation is awaited, its parenthesis is the next character. -/
def ParenAwaits (l : Lexer) : Prop :=
  ∀ opening, l.context = .interpolationStart opening → l.rest.head? = some '('

/-- A lexeme keeps the contexts nested, up to its end. -/
theorem contextsNest_lexeme (hin : l.toCursor.IsIn source)
    (h : ContextsNest source l.index l.contexts) (hx : l.lexeme = .ok x) :
    ContextsNest source (l.accept x).index x.contexts := by
  have hle : l.index ≤ (l.accept x).index := Nat.le_add_right ..
  cases lexeme_cases hx with
  | closingQuote hcontext hquote =>
    obtain ⟨outer, houter⟩ := Context.eq_cons_of_innermost hcontext (by simp)
    rw [houter] at h
    have htail := (h.tail (by simp)).mono hle
    simpa only [houter, List.tail_cons] using htail
  | backslash hcontext hopen =>
    obtain ⟨outer, houter⟩ := Context.eq_cons_of_innermost hcontext (by simp)
    rw [houter] at h
    have hpush : ContextsNest source l.index (.interpolationStart _ :: _ :: outer) := h.push rfl rfl
    simpa only [houter] using hpush.mono hle
  | @interpolationParen opening hcontext =>
    obtain ⟨outer, houter⟩ := Context.eq_cons_of_innermost hcontext (by simp)
    rw [houter] at h
    have hexchange := h.exchange (e := .interpolation 0 opening) (by simp)
      (fun d hd => by cases d <;> exact hd) rfl
    simpa only [houter, List.tail_cons] using hexchange.mono hle
  | leftParen hcode hrest => exact h.enterParen.mono hle
  | interpolationEnd hcontext hrest =>
    obtain ⟨outer, houter⟩ := Context.eq_cons_of_innermost hcontext (by simp)
    rw [houter] at h
    have htail := (h.tail (by simp)).mono hle
    simpa only [houter, List.tail_cons] using htail
  | rightParen hcode hends hrest => exact h.leaveParen.mono hle
  | @openingQuote text hcode hrest =>
    have hlt : l.index < (l.accept (l.openingQuote text)).index := by
      have hpos : 0 < (l.rest.take (StringText.quoteLength (StringText.opensMultiline text))).length := by
        rw [hrest]
        unfold StringText.quoteLength
        split <;> simp
      exact Nat.lt_add_of_pos_right hpos
    have hquote : source[l.index]? = some '"' := by
      rw [hin.getElem?_index, hrest]
      rfl
    have hpush := h.pushLiteral (StringText.opensMultiline text) hcode hquote hlt
    rw [← hin.pos_eq_behind] at hpush
    exact hpush
  | segment | eof | ordinary | unknown => exact h.mono hle

/-- Behind a lexeme that leads to an interpolation, its parenthesis comes. -/
theorem parenAwaits_lexeme (h : ContextsNest source l.index l.contexts) (hx : l.lexeme = .ok x) :
    (l.accept x).ParenAwaits := by
  intro opening hopening
  replace hopening : Context.innermost x.contexts = .interpolationStart opening := hopening
  -- code is not followed by an awaited interpolation, and neither is a literal that goes on
  have hnotCode : (Context.innermost x.contexts).isCode = true → False := by
    intro hcode
    rw [hopening] at hcode
    cases hcode
  have htail : ∀ c outer, l.contexts = c :: outer → x.contexts = l.contexts.tail → False := by
    intro c outer hcontexts htail
    rw [htail, hcontexts, List.tail_cons] at hopening
    obtain ⟨rest, rfl⟩ := Context.eq_cons_of_innermost hopening (by simp)
    rw [hcontexts] at h
    have hstands := (List.isChain_cons_cons.mp h.nested).1
    cases c <;> exact hstands
  cases lexeme_cases hx with
  | closingQuote hcontext hquote =>
    obtain ⟨outer, houter⟩ := Context.eq_cons_of_innermost hcontext (by simp)
    exact (htail _ _ houter rfl).elim
  | backslash hcontext hopen =>
    show (l.rest.drop 1).head? = some '('
    unfold StringText.startsInterpolation at hopen
    split at hopen
    · rename_i hrest
      rw [hrest]
      rfl
    · cases hopen
  | interpolationEnd hcontext hrest =>
    obtain ⟨outer, houter⟩ := Context.eq_cons_of_innermost hcontext (by simp)
    exact (htail _ _ houter rfl).elim
  | segment hcontext | eof hcontext =>
    have hsame : l.context = .interpolationStart opening := hopening
    rw [hcontext] at hsame
    cases hsame
  | interpolationParen | openingQuote => cases hopening
  | leftParen hcode => exact (hnotCode (by rw [Context.isCode_enterParen]; exact hcode)).elim
  | rightParen hcode => exact (hnotCode (by rw [Context.isCode_leaveParen]; exact hcode)).elim
  | ordinary hcode | unknown hcode => exact (hnotCode hcode).elim

-- ---------------------------------------------------------------------------
-- One call
-- ---------------------------------------------------------------------------

/-- Every way a call can end. Trivia is passed in code only, before a lexeme and behind it; where no
lexeme is found, or where trivia does not end, the contexts stay as they were before the failure. -/
inductive CallStep (l : Lexer) : Lexer → Prop where
  /-- No lexeme was taken: only the cursor has moved, and in code or in a literal. -/
  | stopped {n : Nat} (hplace : ∀ opening, l.context ≠ .interpolationStart opening) :
      CallStep l (l.advance n)
  /-- A lexeme was taken, behind trivia and before trivia. -/
  | taken {m n : Nat} {x : Lexeme} (hleading : l.context.isCode = false → m = 0)
      (hx : (l.advance m).lexeme = .ok x)
      (htrailing : ((l.advance m).accept x).context.isCode = false → n = 0) :
      CallStep l (((l.advance m).accept x).advance n)

theorem takeLeading_moves (l : Lexer) :
    ∃ m, l.takeLeading.2 = l.advance m ∧ (l.context.isCode = false → m = 0) := by
  unfold takeLeading
  split
  · rename_i hcode
    obtain ⟨m, hm⟩ := l.takeGap_advance false
    exact ⟨m, hm, fun hnot => by rw [hcode] at hnot; cases hnot⟩
  · exact ⟨0, by simp [advance], fun _ => rfl⟩

theorem takeTrailing_moves (l : Lexer) (kind : Kind) :
    ∃ n, (l.takeTrailing kind).2 = l.advance n ∧ (l.context.isCode = false → n = 0) := by
  unfold takeTrailing
  split
  · rename_i hcode
    rw [Bool.and_eq_true] at hcode
    obtain ⟨n, hn⟩ := l.takeGap_advance true
    exact ⟨n, hn, fun hnot => by rw [hcode.1] at hnot; cases hnot⟩
  · exact ⟨0, by simp [advance], fun _ => rfl⟩

/-- Trivia fails only where it is looked for, which is in code. -/
theorem isCode_of_takeLeading_error {l behind : Lexer} {failure : Failure}
    (h : l.takeLeading = (.error failure, behind)) : l.context.isCode = true := by
  unfold takeLeading at h
  split at h
  · assumption
  · cases h

/-- The search for a lexeme fails in code or in a literal. -/
theorem context_of_lexeme_error {l : Lexer} {stop : Interruption} (h : l.lexeme = .error stop)
    (opening : Pos) : l.context ≠ .interpolationStart opening := by
  intro hcontext
  unfold lexeme at h
  rw [hcontext] at h
  cases h

theorem advance_advance (l : Lexer) (m n : Nat) : (l.advance m).advance n = l.advance (m + n) :=
  congrArg (fun c => { l with toCursor := c }) (l.toCursor.advance_advance m n)

theorem callStep_next (l : Lexer) : l.CallStep l.next.2 := by
  unfold next
  obtain ⟨m, hm, hleading⟩ := l.takeLeading_moves
  split
  · rename_i failure here heq
    rw [heq] at hm
    obtain rfl : here = l.advance m := hm
    refine .stopped fun opening hcontext => ?_
    have hcode := isCode_of_takeLeading_error heq
    rw [hcontext] at hcode
    cases hcode
  rename_i leading here heq
  rw [heq] at hm
  obtain rfl : here = l.advance m := hm
  split
  · rename_i stop hstop
    show l.CallStep ((l.advance m).advance stop.length)
    rw [advance_advance]
    exact .stopped fun opening hcontext => context_of_lexeme_error hstop opening hcontext
  rename_i x hx
  obtain ⟨n, hn, htrailing⟩ := ((l.advance m).accept x).takeTrailing_moves x.kind
  split
  · rename_i failure behind heq'
    rw [heq'] at hn
    obtain rfl : behind = _ := hn
    exact .taken hleading hx htrailing
  · rename_i trailing behind heq'
    rw [heq'] at hn
    obtain rfl : behind = _ := hn
    exact .taken hleading hx htrailing

-- ---------------------------------------------------------------------------
-- The invariant
-- ---------------------------------------------------------------------------

/-- The lexer stands in the source, its contexts nest, and an interpolation is awaited only where
its parenthesis is. -/
structure InOrder (source : List Char) (l : Lexer) : Prop where
  isIn : l.toCursor.IsIn source
  nest : ContextsNest source l.index l.contexts
  paren : l.ParenAwaits

theorem inOrder_ofText (source : List Char) : (ofText source).InOrder source where
  isIn := Cursor.isIn_ofText source
  nest := .code source 0
  paren opening hopening := by cases hopening

/-- Moving on keeps the invariant, unless an interpolation is awaited. -/
theorem InOrder.advance (h : l.InOrder source) (n : Nat)
    (hplace : ∀ opening, l.context = .interpolationStart opening → n = 0) :
    (l.advance n).InOrder source where
  isIn := h.isIn.advance n
  nest := h.nest.mono (Nat.le_add_right ..)
  paren opening hopening := by
    rw [advance_context] at hopening
    rw [hplace opening hopening]
    exact h.paren opening hopening

theorem InOrder.accept (h : l.InOrder source) (hx : l.lexeme = .ok x) :
    (l.accept x).InOrder source where
  isIn := h.isIn.advance x.length
  nest := contextsNest_lexeme h.isIn h.nest hx
  paren := parenAwaits_lexeme h.nest hx

/-- A lexeme other than the end of the source is there. -/
theorem InOrder.rest_ne_nil (h : l.InOrder source) (hx : l.lexeme = .ok x) (hkind : x.kind ≠ .eof) :
    l.rest ≠ [] ∧ 0 < x.length := by
  rcases lexeme_length_pos hx with heof | hpos | ⟨opening, hcontext, -⟩
  · exact absurd heof hkind
  · exact hpos
  · have hparen := h.paren opening hcontext
    unfold lexeme at hx
    rw [hcontext] at hx
    obtain rfl := Except.ok.inj hx
    refine ⟨fun hnil => ?_, Nat.one_pos⟩
    rw [hnil] at hparen
    cases hparen

/-- Trivia before a lexeme keeps a lexer in order. -/
theorem InOrder.takeLeading {here : Lexer} {leading : Trivia} (h : l.InOrder source)
    (hleading : l.takeLeading = (.ok leading, here)) : here.InOrder source := by
  obtain ⟨k, hk, hplace⟩ := l.takeLeading_moves
  rw [hleading] at hk
  obtain rfl : here = l.advance k := hk
  exact h.advance k fun opening hopening => hplace (by rw [hopening]; rfl)

private theorem isCode_of_awaits {l : Lexer} {opening : Pos}
    (h : l.context = .interpolationStart opening) : l.context.isCode = false := by
  rw [h]
  rfl

theorem InOrder.step {behind : Lexer} (h : l.InOrder source) (hstep : l.CallStep behind) :
    behind.InOrder source := by
  cases hstep with
  | stopped hplace => exact h.advance _ fun opening hopening => absurd hopening (hplace opening)
  | taken hleading hx htrailing =>
    have hhere := h.advance _ fun opening hopening => hleading (isCode_of_awaits hopening)
    exact (hhere.accept hx).advance _ fun opening hopening => htrailing (isCode_of_awaits hopening)

theorem InOrder.afterCalls (h : l.InOrder source) (n : Nat) : (afterCalls n l).InOrder source := by
  induction n generalizing l with
  | zero => exact h
  | succ n ih => exact ih (h.step l.callStep_next)

theorem Reads.inOrder {m : Lexer} {ts : List Token} (h : l.Reads ts m) (hl : l.InOrder source) :
    m.InOrder source := by
  induction h with
  | nil => exact hl
  | @snoc _ m _ _ _ hnext _ ih =>
    have hbehind := ih.step m.callStep_next
    rwa [hnext] at hbehind

-- ---------------------------------------------------------------------------
-- The whole statement
-- ---------------------------------------------------------------------------

/-- What holds of a lexer between two calls. -/
structure IsSound (source : List Char) (l : Lexer) : Prop where
  index_le : l.index ≤ source.length
  pos_eq : l.pos = Pos.behind (source.take l.index)
  before_eq : l.before.reverse = source.take l.index
  rest_eq : l.rest = source.drop l.index
  /-- Plain code is at the bottom of the contexts and nowhere else. -/
  bottom : ∃ above, l.contexts = above ++ [.code] ∧ .code ∉ above
  /-- Above it literals and interpolations alternate, and an interpolation remembers the place of
  the literal it is in. -/
  alternate : l.contexts.IsChain Context.StandsIn
  /-- An interpolation is awaited in the innermost context only. -/
  onTop : ∀ opening, .interpolationStart opening ∉ l.contexts.tail
  paren : ∀ opening, l.context = .interpolationStart opening → source[l.index]? = some '('
  quotes : ∀ opening ∈ Context.literals l.contexts, OpenedBefore source l.index opening
  inTurn : (Context.literals l.contexts).Pairwise fun inner outer => outer.offset < inner.offset

/-- What a call measures lies in the source, be it trivia, a lexeme or how far a search went that
failed, and the contexts that it leads to are never exhausted. -/
structure StaysInside (source : List Char) (l : Lexer) : Prop where
  trivia : ∀ trailing atStart, l.index + (Gap.ofText trailing atStart l.rest).length ≤ source.length
  lexeme : ∀ leading here x, l.takeLeading = (.ok leading, here) → here.lexeme = .ok x →
    here.index + x.length ≤ source.length ∧ x.contexts ≠ []
  stop : ∀ leading here stop, l.takeLeading = (.ok leading, here) → here.lexeme = .error stop →
    here.index + stop.length ≤ source.length
  trailing : ∀ leading here x, l.takeLeading = (.ok leading, here) → here.lexeme = .ok x →
    ∀ trailing atStart, (here.accept x).index +
      (Gap.ofText trailing atStart (here.accept x).rest).length ≤ source.length

/-- What a call reads by an index is in the source: each text of trivia, what stands before and behind
a lexeme where that decides what it is, and its text. -/
structure ReadsInside (source : List Char) (l : Lexer) : Prop where
  leading : ∀ trailing atStart, cutAt? source l.index (Gap.ofText trailing atStart l.rest).pieces =
    some ((Gap.ofText trailing atStart l.rest).pieces.map Piece.text)
  /-- No read fails in the search for a lexeme, whether it finds one or not. -/
  lexeme : ∀ leading here, l.takeLeading = (.ok leading, here) →
    here.lexemeAt? source = some here.lexeme
  text : ∀ leading here x, l.takeLeading = (.ok leading, here) → here.lexeme = .ok x →
    stretch? source here.index (here.index + x.length) = some (here.rest.take x.length)
  trailing : ∀ leading here x, l.takeLeading = (.ok leading, here) → here.lexeme = .ok x →
    ∀ trailing atStart, let gap := Gap.ofText trailing atStart (here.accept x).rest
      cutAt? source (here.accept x).index gap.pieces = some (gap.pieces.map Piece.text)

theorem index_add_le {n : Nat} (h : l.toCursor.IsIn source) (hn : n ≤ l.rest.length) :
    l.index + n ≤ source.length := by
  rw [← h.drop_index, List.length_drop] at hn
  have hle := h.index_le
  omega

theorem InOrder.isSound (h : l.InOrder source) : l.IsSound source where
  index_le := h.isIn.index_le
  pos_eq := h.isIn.pos_eq_behind
  before_eq := h.isIn.take_index.symm
  rest_eq := h.isIn.drop_index.symm
  bottom := by
    obtain ⟨above, habove⟩ := List.getLast?_eq_some_iff.mp h.nest.bottom
    refine ⟨above, habove, fun hmem => ?_⟩
    -- a context above the bottom stands in the next one, and plain code stands in none
    obtain ⟨inner, middle, rfl⟩ := List.append_of_mem hmem
    obtain ⟨d, outer, hd⟩ := List.exists_cons_of_ne_nil (l := middle ++ [Context.code]) (by simp)
    have hchain := h.nest.nested
    rw [habove, List.append_assoc, List.cons_append, hd] at hchain
    exact (List.isChain_append_cons_cons.mp hchain).2.1
  alternate := h.nest.nested
  onTop opening hmem := by
    obtain ⟨middle, outer, htail⟩ := List.append_of_mem hmem
    obtain ⟨c, rest, hcontexts⟩ := List.exists_cons_of_ne_nil h.nest.ne_nil
    have hchain := h.nest.nested
    rw [hcontexts] at hchain htail
    rw [List.tail_cons] at htail
    -- whatever precedes it would have to stand in it
    rcases List.eq_nil_or_concat middle with rfl | ⟨first, last, rfl⟩
    · rw [htail] at hchain
      have hstands := (List.isChain_cons_cons.mp hchain).1
      cases c <;> exact hstands
    · rw [htail, List.concat_eq_append, List.append_assoc, List.singleton_append, ← List.cons_append]
        at hchain
      have hstands := (List.isChain_append_cons_cons.mp hchain).2.1
      cases last <;> exact hstands
  paren opening hopening := by
    rw [h.isIn.getElem?_index]
    exact h.paren opening hopening
  quotes := h.nest.quotes
  inTurn := h.nest.inTurn

/-- A lexeme is no longer than what is left, since an awaited parenthesis is there. -/
theorem InOrder.lexeme_length_le (h : l.InOrder source) (hx : l.lexeme = .ok x) :
    x.length ≤ l.rest.length :=
  Lexer.lexeme_length_le hx fun opening hopening hrest => by
    have hparen := h.paren opening hopening
    rw [hrest] at hparen
    cases hparen

theorem InOrder.staysInside (h : l.InOrder source) : l.StaysInside source := by
  have hgap : ∀ {k : Lexer}, k.InOrder source → ∀ trailing atStart,
      k.index + (Gap.ofText trailing atStart k.rest).length ≤ source.length :=
    fun hk trailing atStart => index_add_le hk.isIn (Gap.text_isPrefix ..).length_le
  refine ⟨hgap h, fun leading here x hleading hx => ?_, fun leading here stop hleading hstop => ?_,
    fun leading here x hleading hx => hgap ((h.takeLeading hleading).accept hx)⟩
  · have hk := h.takeLeading hleading
    exact ⟨index_add_le hk.isIn (hk.lexeme_length_le hx), (hk.accept hx).nest.ne_nil⟩
  · exact index_add_le (h.takeLeading hleading).isIn (stop_length_le hstop)

theorem InOrder.readsInside (h : l.InOrder source) : l.ReadsInside source := by
  have hgap : ∀ {k : Lexer}, k.InOrder source → ∀ trailing atStart,
      let gap := Gap.ofText trailing atStart k.rest
      cutAt? source k.index gap.pieces = some (gap.pieces.map Piece.text) := by
    intro k hk trailing atStart
    refine cutAt?_of_isPrefix hk.isIn.index_le ?_
    rw [hk.isIn.drop_index]
    exact Gap.text_isPrefix ..
  refine ⟨hgap h, fun leading here hleading => lexemeAt?_eq (h.takeLeading hleading).isIn,
    fun leading here x hleading hx => ?_,
    fun leading here x hleading hx => hgap ((h.takeLeading hleading).accept hx)⟩
  have hk := h.takeLeading hleading
  rw [stretch?_of_le hk.isIn.index_le (by rw [hk.isIn.drop_index]; exact hk.lexeme_length_le hx),
    hk.isIn.drop_index]

end Lexer

/-- **Every state that calls lead to is in order.** Whatever the source and however many calls were
made, failures and the end of the source included, the cursor counts truly, the contexts nest, what
the next call measures lies in the source, and it reads nothing out of range. -/
theorem reachable_in_order (source : List Char) (n : Nat) :
    ((Lexer.ofText source).afterCalls n).IsSound source ∧
      ((Lexer.ofText source).afterCalls n).StaysInside source ∧
      ((Lexer.ofText source).afterCalls n).ReadsInside source := by
  have h := (Lexer.inOrder_ofText source).afterCalls n
  exact ⟨h.isSound, h.staysInside, h.readsInside⟩

end SwiftColoring
