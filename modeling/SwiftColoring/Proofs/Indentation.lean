import SwiftColoring.Proofs.Blanks
import SwiftColoring.Proofs.Drawn
import SwiftColoring.Proofs.Reachable
import SwiftColoring.Proofs.SideBySide

/-!
# Indentation does not matter

Two sources differ in blanks at one place, where the first has trivia. The lexers of both are run side by
side. Up to the blanks they agree, behind them they stand before the same text, and the indexes that
they remember are shifted against each other. What one of them looks ahead for or back at across the
blanks, the other sees as well. So both sources have the same tokens, apart from places and trivia, and
what is drawn of the tokens is the same.

* `Exchange` — two sources that differ in blanks.
* `Lexer.BeforeBlanks`, `Lexer.BehindBlanks` — two lexers before the blanks, and behind them.
* `Lexer.Along.next` — they hand out the same token.
* `indentation_is_immaterial` — the whole statement.
-/

namespace SwiftColoring

-- ---------------------------------------------------------------------------
-- Two sources
-- ---------------------------------------------------------------------------

/-- Two sources that differ in blanks at one place. -/
structure Exchange where
  before : List Char
  blanks : List Char
  blanks' : List Char
  behind : List Char
  indents : Indents blanks
  indents' : Indents blanks'

/-- Indexes before the blanks answer to themselves, and those behind them are shifted. -/
def Exchange.matching (e : Exchange) : Matching where
  index i j := (i < e.before.length ∧ j = i) ∨
    ∃ k, i = e.before.length + e.blanks.length + k ∧ j = e.before.length + e.blanks'.length + k
  unique := by
    rintro i j i' j' (⟨hi, rfl⟩ | ⟨k, rfl, rfl⟩) (⟨hi', rfl⟩ | ⟨k', rfl, rfl⟩)
    all_goals omega

-- ---------------------------------------------------------------------------
-- What is seen across blanks
-- ---------------------------------------------------------------------------

namespace GenericArguments

/-- The character before counts only for the sign of an arrow. -/
theorem marks?_of_previous {previous previous' : Char} (h : (previous != '-') = (previous' != '-'))
    (nested index : Nat) (text : List Char) :
    marks? nested previous index text = marks? nested previous' index text := by
  cases text with
  | nil => rfl
  | cons c rest => simp only [marks?, h]

theorem marks?_blank {b : Char} (hb : IsBlank b) (nested : Nat) (previous : Char) (index : Nat)
    (text : List Char) : marks? nested previous index (b :: text) = marks? nested b (index + 1) text := by
  rcases hb with rfl | rfl <;> rfl

/-- The search for brackets passes blanks. -/
theorem marks?_indents {w : List Char} (hw : Indents w) (nested : Nat) (previous : Char) (index : Nat)
    (s : List Char) :
    marks? nested previous index (w ++ s) = marks? nested ' ' (index + w.length) s := by
  have hall : ∀ (v : List Char) (index : Nat), (∀ c ∈ v, IsBlank c) →
      marks? nested ' ' index (v ++ s) = marks? nested ' ' (index + v.length) s := by
    intro v
    induction v with
    | nil => exact fun _ _ => rfl
    | cons b v ih =>
      intro index hv
      have hb := hv b (List.mem_cons_self ..)
      have hsame : (b != '-') = (' ' != '-') := by rcases hb with rfl | rfl <;> rfl
      rw [List.cons_append, marks?_blank hb, marks?_of_previous hsame,
        ih (index + 1) fun c hc => hv c (List.mem_cons_of_mem _ hc), List.length_cons, Nat.add_assoc,
        Nat.add_comm 1]
  rw [← hall w index hw.blank]
  obtain ⟨b, v, rfl, hb, -⟩ := hw.exists_cons
  rw [List.cons_append, marks?_blank hb, marks?_blank hb]

end GenericArguments

theorem Word.actsAsKeyword_indents {w : List Char} (hw : Indents w) (word s : List Char) :
    actsAsKeyword word (w ++ s) = actsAsKeyword word s := by
  have hdrop : (w ++ s).dropWhile isWhitespace = s.dropWhile isWhitespace := by
    refine List.dropWhile_append_of_pos fun c hc => ?_
    rcases hw.blank c hc with rfl | rfl <;> rfl
  unfold actsAsKeyword
  rw [hdrop]

theorem followsAlike_nil (M : Matching) (index index' : Nat) : FollowsAlike M index index' [] [] where
  stops := .nil
  stops' := .nil
  keyword _ := rfl
  marks _ _ := .none

theorem Exchange.followsAlike (e : Exchange) : FollowsAlike e.matching e.before.length e.before.length
    (e.blanks ++ e.behind) (e.blanks' ++ e.behind) where
  stops := e.indents.stops e.behind
  stops' := e.indents'.stops e.behind
  keyword word := by
    rw [Word.actsAsKeyword_indents e.indents, Word.actsAsKeyword_indents e.indents']
  marks nested previous := by
    rw [GenericArguments.marks?_indents e.indents, GenericArguments.marks?_indents e.indents']
    -- behind the blanks the search sees the same text in both sources
    have hmarks : Option.Rel (AngleMarks.Like e.matching)
        (GenericArguments.marks? nested ' ' (e.before.length + e.blanks.length) (e.behind ++ []))
        (GenericArguments.marks? nested ' ' (e.before.length + e.blanks'.length) (e.behind ++ [])) :=
      (followsAlike_nil e.matching _ _).marks_append nested ' ' rfl rfl fun k _ => .inr ⟨k, rfl, rfl⟩
    rwa [List.append_nil] at hmarks

/-- Blanks before a text answer alike, whatever stands between them and the text. -/
theorem precedesAlike_blank {b b' : Char} (hb : IsBlank b) (hb' : IsBlank b')
    (passed more more' : List Char) : PrecedesAlike (passed ++ b :: more) (passed ++ b' :: more') := by
  match passed with
  | [] =>
    have hword : isWordChar b' = isWordChar b :=
      (isWordChar_stopper b' hb'.mem_stoppers).trans (isWordChar_stopper b hb.mem_stoppers).symm
    refine ⟨hword, ?_, ?_, ?_⟩
    all_goals rcases hb with rfl | rfl <;> rcases hb' with rfl | rfl <;> rfl
  | [c] =>
    have hslash : (some b' != some '*') = (some b != some '*') := by
      rcases hb with rfl | rfl <;> rcases hb' with rfl | rfl <;> rfl
    refine ⟨rfl, rfl, rfl, ?_⟩
    simp only [List.singleton_append, Operator.isLeftBound, List.head?_cons, hslash]
  | c :: d :: passed => exact ⟨rfl, rfl, rfl, rfl⟩

-- ---------------------------------------------------------------------------
-- Two lexers
-- ---------------------------------------------------------------------------

/-- The token without its place and its trivia. -/
def Token.bare (t : Token) : Kind × List Char := (t.kind, t.text)

namespace Lexer

/-- Two lexers before the blanks, with the text `r` between them and the blanks. The flags tell of the
characters before the lexers whether they will stand in runs of blanks. -/
structure BeforeBlanks (e : Exchange) (flags : List Bool) (r : List Char) (l l' : Lexer) : Prop where
  before : l'.before = l.before
  rest : l.rest = r ++ (e.blanks ++ e.behind)
  rest' : l'.rest = r ++ (e.blanks' ++ e.behind)
  index : l.index + r.length = e.before.length
  index' : l'.index = l.index
  blank : flags[r.length]? = some true
  contexts : Context.AllLike l.contexts l'.contexts
  angles : AngleMarks.Like e.matching l.angles l'.angles

/-- Two lexers behind the blanks. -/
structure BehindBlanks (e : Exchange) (l l' : Lexer) : Prop where
  before : ∃ passed b b' more more', IsBlank b ∧ IsBlank b' ∧
    l.before = passed ++ b :: more ∧ l'.before = passed ++ b' :: more'
  rest : l'.rest = l.rest
  index : ∃ k, l.index = e.before.length + e.blanks.length + k ∧
    l'.index = e.before.length + e.blanks'.length + k
  contexts : Context.AllLike l.contexts l'.contexts
  angles : AngleMarks.Like e.matching l.angles l'.angles

/-- Two lexers on the same side of the blanks. -/
inductive Along (e : Exchange) (flags : List Bool) (l l' : Lexer) : Prop where
  | before {r : List Char} (h : BeforeBlanks e flags r l l')
  | behind (h : BehindBlanks e l l')

variable {e : Exchange} {flags flags' : List Bool} {r : List Char} {l l' here behind : Lexer}
  {x x' : Lexeme} {trivia : Trivia} {trailing : Bool} {source : List Char} {t : Token}

namespace BeforeBlanks

theorem advance {n : Nat} (h : BeforeBlanks e flags r l l') (hn : n ≤ r.length)
    (hblank : flags'[r.length - n]? = some true) :
    BeforeBlanks e flags' (r.drop n) (l.advance n) (l'.advance n) := by
  have htake : l.rest.take n = r.take n := by rw [h.rest, List.take_append_of_le_length hn]
  have htake' : l'.rest.take n = r.take n := by rw [h.rest', List.take_append_of_le_length hn]
  refine ⟨?_, ?_, ?_, ?_, ?_, by rwa [List.length_drop], h.contexts, h.angles⟩
  · simp only [advance_toCursor, Cursor.advance_before, htake, htake', h.before]
  · simp only [advance_toCursor, Cursor.advance_rest, h.rest, List.drop_append_of_le_length hn]
  · simp only [advance_toCursor, Cursor.advance_rest, h.rest', List.drop_append_of_le_length hn]
  · simp only [advance_toCursor, Cursor.advance_index, htake, List.length_take_of_le hn, List.length_drop]
    have hindex := h.index
    omega
  · simp only [advance_toCursor, Cursor.advance_index, htake, htake', h.index']

theorem accept (h : BeforeBlanks e flags r l l') (hx : x.Like e.matching x')
    (hcontexts : Context.AllLike x.contexts x'.contexts) (hn : x.length ≤ r.length)
    (hblank : flags'[r.length - x.length]? = some true) :
    BeforeBlanks e flags' (r.drop x.length) (l.accept x) (l'.accept x') := by
  have hadvance : BeforeBlanks e flags' (r.drop x.length) (l.advance x.length) (l'.advance x'.length) := by
    rw [hx.length]
    exact h.advance hn hblank
  exact ⟨hadvance.before, hadvance.rest, hadvance.rest', hadvance.index, hadvance.index', hadvance.blank,
    hcontexts, hx.angles⟩

/-- What is passed over the blanks leads to the same place behind them. -/
theorem cross (h : BeforeBlanks e flags r l l') {k : Nat} (hk : k ≤ e.behind.length) :
    BehindBlanks e (l.advance (r.length + e.blanks.length + k))
      (l'.advance (r.length + e.blanks'.length + k)) := by
  have htake : ∀ v : List Char, (r ++ (v ++ e.behind)).take (r.length + v.length + k) =
      r ++ (v ++ e.behind.take k) := by
    intro v
    rw [Nat.add_assoc, List.take_length_add_append, List.take_length_add_append]
  have hdrop : ∀ v : List Char, (r ++ (v ++ e.behind)).drop (r.length + v.length + k) =
      e.behind.drop k := by
    intro v
    rw [Nat.add_assoc, List.drop_length_add_append, List.drop_length_add_append]
  obtain ⟨v, b, hv, hb⟩ := e.indents.exists_concat
  obtain ⟨v', b', hv', hb'⟩ := e.indents'.exists_concat
  have hindex := h.index
  refine ⟨⟨(e.behind.take k).reverse, b, b', v.reverse ++ (r.reverse ++ l.before),
    v'.reverse ++ (r.reverse ++ l.before), hb, hb', ?_, ?_⟩, ?_, ⟨k, ?_, ?_⟩, h.contexts, h.angles⟩
  · rw [advance_toCursor, Cursor.advance_before, h.rest, htake, hv]
    simp
  · rw [advance_toCursor, Cursor.advance_before, h.rest', htake, hv', h.before]
    simp
  · rw [advance_toCursor, Cursor.advance_rest, h.rest', hdrop, advance_toCursor, Cursor.advance_rest,
      h.rest, hdrop]
  · rw [advance_toCursor, Cursor.advance_index, h.rest, htake]
    simp only [List.length_append, List.length_take_of_le hk]
    omega
  · rw [advance_toCursor, Cursor.advance_index, h.rest', htake, h.index']
    simp only [List.length_append, List.length_take_of_le hk]
    omega

theorem beside (h : BeforeBlanks e flags r l l') :
    Beside e.matching r (e.blanks ++ e.behind) (e.blanks' ++ e.behind) l l' where
  rest := h.rest
  rest' := h.rest'
  precedes := by
    rw [h.before]
    exact .refl _
  follows := by
    rw [h.index', h.index]
    exact e.followsAlike
  index k hk := by
    refine .inl ⟨?_, by rw [h.index']⟩
    have hindex := h.index
    omega
  context := h.contexts.innermost.sameSort
  paren _ := h.contexts.innermost.endsInterpolation_eq
  angles := h.angles

end BeforeBlanks

namespace BehindBlanks

theorem advance (h : BehindBlanks e l l') (n : Nat) : BehindBlanks e (l.advance n) (l'.advance n) := by
  obtain ⟨passed, b, b', more, more', hb, hb', hbefore, hbefore'⟩ := h.before
  obtain ⟨k, hindex, hindex'⟩ := h.index
  refine ⟨⟨(l.rest.take n).reverse ++ passed, b, b', more, more', hb, hb', ?_, ?_⟩, ?_,
    ⟨k + (l.rest.take n).length, ?_, ?_⟩, h.contexts, h.angles⟩
  · rw [advance_toCursor, Cursor.advance_before, hbefore, List.append_assoc]
  · rw [advance_toCursor, Cursor.advance_before, h.rest, hbefore', List.append_assoc]
  · rw [advance_toCursor, Cursor.advance_rest, h.rest]
    rfl
  · rw [advance_toCursor, Cursor.advance_index, hindex, Nat.add_assoc]
  · rw [advance_toCursor, Cursor.advance_index, h.rest, hindex', Nat.add_assoc]

theorem accept (h : BehindBlanks e l l') (hx : x.Like e.matching x')
    (hcontexts : Context.AllLike x.contexts x'.contexts) : BehindBlanks e (l.accept x) (l'.accept x') := by
  have hadvance : BehindBlanks e (l.advance x.length) (l'.advance x'.length) := by
    rw [hx.length]
    exact h.advance x.length
  exact ⟨hadvance.before, hadvance.rest, hadvance.index, hcontexts, hx.angles⟩

theorem beside (h : BehindBlanks e l l') : Beside e.matching l.rest [] [] l l' where
  rest := (List.append_nil _).symm
  rest' := by rw [h.rest, List.append_nil]
  precedes := by
    obtain ⟨passed, b, b', more, more', hb, hb', hbefore, hbefore'⟩ := h.before
    rw [hbefore, hbefore']
    exact precedesAlike_blank hb hb' passed more more'
  follows := followsAlike_nil ..
  index k _ := by
    obtain ⟨n, hindex, hindex'⟩ := h.index
    exact .inr ⟨n + k, by rw [hindex, Nat.add_assoc], by rw [hindex', Nat.add_assoc]⟩
  context := h.contexts.innermost.sameSort
  paren _ := h.contexts.innermost.endsInterpolation_eq
  angles := h.angles

end BehindBlanks

namespace Along

theorem contexts (h : Along e flags l l') : Context.AllLike l.contexts l'.contexts := by
  cases h with
  | before h => exact h.contexts
  | behind h => exact h.contexts

theorem isCode_eq (h : Along e flags l l') : l'.context.isCode = l.context.isCode :=
  h.contexts.innermost.isCode_eq

-- ---------------------------------------------------------------------------
-- One call
-- ---------------------------------------------------------------------------

theorem takeGap (h : Along e (trivia.blanks ++ flags) l l')
    (hgap : l.takeGap trailing = (.ok trivia, here)) :
    ∃ trivia' here', l'.takeGap trailing = (.ok trivia', here') ∧ Along e flags here here' := by
  obtain ⟨hopen, rfl, rfl⟩ := takeGap_ok_iff.mp hgap
  rw [Trivia.blanks_ofList] at h
  cases h with
  | @before r h =>
    have hblank := h.blank
    rw [h.rest] at hopen hblank ⊢
    obtain ⟨hopen', hexchange⟩ := Gap.exchange e.indents e.indents' trailing l.before.isEmpty hopen hblank
    refine ⟨_, _, takeGap_ok_iff.mpr ⟨?_, rfl, rfl⟩, ?_⟩
    · rw [h.before, h.rest']
      exact hopen'
    rw [h.before, h.rest']
    cases hexchange with
    | before hle hlength hlater =>
      rw [hlength]
      exact .before (h.advance hle hlater)
    | across k hk hlength hlength' =>
      rw [hlength, hlength']
      exact .behind (h.cross hk)
  | behind h =>
    obtain ⟨passed, b, b', more, more', -, -, hbefore, hbefore'⟩ := h.before
    have hstart : l'.before.isEmpty = l.before.isEmpty := by
      rw [hbefore, hbefore']
      cases passed <;> rfl
    refine ⟨_, _, takeGap_ok_iff.mpr ⟨?_, rfl, rfl⟩, ?_⟩
    · rw [hstart, h.rest]
      exact hopen
    · rw [hstart, h.rest]
      exact .behind (h.advance _)

theorem takeLeading (h : Along e (trivia.blanks ++ flags) l l')
    (hleading : l.takeLeading = (.ok trivia, here)) :
    ∃ trivia' here', l'.takeLeading = (.ok trivia', here') ∧ Along e flags here here' := by
  unfold Lexer.takeLeading at hleading ⊢
  rw [h.isCode_eq]
  split at hleading
  · rw [if_pos ‹_›]
    exact h.takeGap hleading
  · obtain ⟨htrivia, rfl⟩ := Prod.mk.inj hleading
    obtain rfl := Except.ok.inj htrivia
    exact ⟨[], l', if_neg ‹_›, h⟩

theorem takeTrailing {kind : Kind} (h : Along e (trivia.blanks ++ flags) l l')
    (htrailing : l.takeTrailing kind = (.ok trivia, here)) :
    ∃ trivia' here', l'.takeTrailing kind = (.ok trivia', here') ∧ Along e flags here here' := by
  unfold Lexer.takeTrailing at htrailing ⊢
  rw [h.isCode_eq]
  split at htrailing
  · rw [if_pos ‹_›]
    exact h.takeGap htrailing
  · obtain ⟨htrivia, rfl⟩ := Prod.mk.inj htrailing
    obtain rfl := Except.ok.inj htrivia
    exact ⟨[], l', if_neg ‹_›, h⟩

/-- A lexeme, which holds no blanks of trivia, is found by both. -/
theorem lexeme (h : Along e (List.replicate (l.rest.take x.length).length false ++ flags) l l')
    (hl : l.InOrder source) (hx : l.lexeme = .ok x) :
    ∃ x', l'.lexeme = .ok x' ∧ x'.kind = x.kind ∧ l'.rest.take x'.length = l.rest.take x.length ∧
      Along e flags (l.accept x) (l'.accept x') := by
  by_cases hnil : l.rest = []
  · -- the source ends, behind the blanks
    have hkind : x.kind = .eof := by
      by_contra hkind
      exact (hl.rest_ne_nil hx hkind).1 hnil
    have hcontext := (at_end_of_kind_eof hx hkind).1
    rw [lexeme_of_ended hcontext hnil] at hx
    obtain rfl := Except.ok.inj hx
    cases h with
    | before h =>
      obtain ⟨b, v, hb, -⟩ := e.indents.exists_cons
      rw [h.rest, hb] at hnil
      simp at hnil
    | behind h =>
      have hcontext' : l'.context = .code := by
        have hlike : Context.Like l.context l'.context := h.contexts.innermost
        rw [hcontext] at hlike
        generalize l'.context = context' at hlike
        cases hlike
        rfl
      refine ⟨_, lexeme_of_ended hcontext' (h.rest.trans hnil), rfl, rfl, ?_⟩
      exact .behind (h.accept ⟨rfl, rfl, h.angles⟩ h.contexts)
  · have hlength := lexeme_length_le hx fun _ _ => hnil
    rw [List.length_take_of_le hlength] at h
    cases h with
    | @before r h =>
      obtain ⟨hle, hlater⟩ := le_of_getElem?_unmarked h.blank
      have hr : r ≠ [] := by
        rintro rfl
        have hkind : x.kind ≠ .eof := fun hkind => hnil (at_end_of_kind_eof hx hkind).2
        exact absurd (hl.rest_ne_nil hx hkind).2 (Nat.not_lt_of_le hle)
      obtain ⟨x', hx', hlike⟩ := h.beside.lexeme hr hx hle
      have hcontexts := contextsAlike_of_lexemes h.contexts hx hx' hlike.kind
      refine ⟨x', hx', hlike.kind, ?_, .before (h.accept hlike hcontexts hle hlater)⟩
      rw [hlike.length, h.rest, h.rest', List.take_append_of_le_length hle,
        List.take_append_of_le_length hle]
    | behind h =>
      obtain ⟨x', hx', hlike⟩ := h.beside.lexeme hnil hx hlength
      have hcontexts := contextsAlike_of_lexemes h.contexts hx hx' hlike.kind
      exact ⟨x', hx', hlike.kind, by rw [hlike.length, h.rest], .behind (h.accept hlike hcontexts)⟩

/-- Two lexers on the same side of the blanks hand out the same token. -/
theorem next (h : Along e (blanksOf t.parts ++ flags) l l') (hl : l.InOrder source)
    (hnext : l.next = (.ok t, behind)) :
    ∃ t' behind', l'.next = (.ok t', behind') ∧ t'.bare = t.bare ∧ Along e flags behind behind' := by
  obtain ⟨leading, here, x, trailing, hleading, hx, htrailing, rfl⟩ := next_ok_iff.mp hnext
  rw [Token.parts, blanksOf_append, blanksOf_cons, List.append_assoc, List.append_assoc] at h
  obtain ⟨leading', here', hleading', hhere⟩ := h.takeLeading hleading
  obtain ⟨x', hx', hkind, htext, haccept⟩ := hhere.lexeme (hl.takeLeading hleading) hx
  obtain ⟨trailing', behind', htrailing', hbehind⟩ := haccept.takeTrailing htrailing
  refine ⟨_, behind', next_ok_iff.mpr ⟨leading', here', x', trailing', hleading', hx', ?_, rfl⟩, ?_,
    hbehind⟩
  · rw [hkind]
    exact htrailing'
  · rw [Token.bare, Token.bare, hkind, htext]

-- ---------------------------------------------------------------------------
-- All calls
-- ---------------------------------------------------------------------------

theorem reads {ts : List Token} {m : Lexer} (h : Along e (blanksOf (partsOf ts) ++ flags) l l')
    (hl : l.InOrder source) (hreads : l.Reads ts m) :
    ∃ us m', l'.Reads us m' ∧ us.map Token.bare = ts.map Token.bare ∧ Along e flags m m' := by
  induction hreads generalizing flags with
  | nil => exact ⟨[], l', .nil, rfl, h⟩
  | @snoc ts m behind t hreads hnext hkind ih =>
    have hparts : blanksOf (partsOf (ts ++ [t])) ++ flags =
        blanksOf (partsOf ts) ++ (blanksOf t.parts ++ flags) := by
      rw [partsOf, List.flatMap_append, List.flatMap_singleton, blanksOf_append, List.append_assoc]
      rfl
    rw [hparts] at h
    obtain ⟨us, m', hreads', hus, hm⟩ := ih h
    obtain ⟨t', behind', hnext', hbare, hbehind⟩ := hm.next (hreads.inOrder hl) hnext
    refine ⟨us ++ [t'], behind', hreads'.snoc hnext' ?_, ?_, hbehind⟩
    · have hsame : t'.kind = t.kind := congrArg Prod.fst hbare
      rw [hsame]
      exact hkind
    · rw [List.map_append, List.map_append, hus, List.map_singleton, List.map_singleton, hbare]

end Along

end Lexer

-- ---------------------------------------------------------------------------
-- Trees and drawing
-- ---------------------------------------------------------------------------

theorem exists_ofText?_of_bare {source source' : List Char} {ts us : List Token}
    (h : tokens source = .ok ts) (h' : tokens source' = .ok us)
    (hbare : us.map Token.bare = ts.map Token.bare) {tree : SourceTree}
    (htree : SourceTree.ofText? source = .ok tree) : ∃ tree', SourceTree.ofText? source' = .ok tree' := by
  obtain ⟨hbalanced, hts⟩ := SourceTree.balanced_of_ofText? htree
  obtain rfl := Except.ok.inj (h.symm.trans hts)
  have hkinds : us.map Token.kind = tree.flatten.map Token.kind := by
    have hmap := congrArg (List.map Prod.fst) hbare
    rwa [List.map_map, List.map_map] at hmap
  exact SourceTree.exists_ofText?_of_balanced h' (hbalanced.of_kinds hkinds)

/-- The stretches drawn of tokens, without their places. -/
def semantics (ds : List Drawn) : List (List Char × Category) :=
  (ds.filter fun d => !d.category.isTrivia).map fun d => (d.text, d.category)

theorem semantics_append (ds es : List Drawn) : semantics (ds ++ es) = semantics ds ++ semantics es := by
  rw [semantics, List.filter_append, List.map_append]
  rfl

/-- What is drawn of a token does not depend on its place and its trivia. -/
theorem Token.semantics_draw {t u : Token} (hbare : u.bare = t.bare)
    (hempty : u.range.isEmpty = t.range.isEmpty) (previous : Option Kind) :
    semantics (u.draw previous) = semantics (t.draw previous) := by
  have htext : ∀ v : Token, semantics (v.draw previous) =
      (v.drawText? previous).toList.map fun d => (d.text, d.category) := by
    intro v
    rw [← ofTokens_draw]
    rfl
  obtain ⟨hkind, htext'⟩ := Prod.mk.inj hbare
  rw [htext, htext]
  unfold drawText? candidate? Kind.draw?
  rw [hempty, hkind, htext']
  split
  · rfl
  · cases Category.ofKind? t.kind <;> rfl

theorem semantics_drawTokensFrom {ts us : List Token} (hbare : us.map Token.bare = ts.map Token.bare)
    (hts : ∀ t ∈ ts, t.range.isEmpty = t.text.isEmpty) (hus : ∀ u ∈ us, u.range.isEmpty = u.text.isEmpty)
    (previous : Option Kind) :
    semantics (drawTokensFrom previous us) = semantics (drawTokensFrom previous ts) := by
  induction ts generalizing us previous with
  | nil =>
    rw [List.map_nil, List.map_eq_nil_iff] at hbare
    rw [hbare]
  | cons t ts ih =>
    obtain ⟨u, us, rfl, hu, hrest⟩ := List.map_eq_cons_iff.mp hbare
    obtain ⟨hkind, htext⟩ := Prod.mk.inj hu
    have hempty : u.range.isEmpty = t.range.isEmpty := by
      rw [hts t (List.mem_cons_self ..), hus u (List.mem_cons_self ..), htext]
    rw [drawTokensFrom, drawTokensFrom, semantics_append, semantics_append,
      Token.semantics_draw hu hempty, hkind, ih hrest (fun t ht => hts t (List.mem_cons_of_mem _ ht))
        fun u hu => hus u (List.mem_cons_of_mem _ hu)]

-- ---------------------------------------------------------------------------
-- The whole statement
-- ---------------------------------------------------------------------------

theorem exists_tokens_exchange {p w w' s : List Char} (hw : Indents w) (hw' : Indents w') {ts : List Token}
    (h : tokens (p ++ w ++ s) = .ok ts) (hblank : (blanksOf (partsOf ts))[p.length]? = some true) :
    ∃ us, tokens (p ++ w' ++ s) = .ok us ∧ us.map Token.bare = ts.map Token.bare := by
  let e : Exchange := ⟨p, w, w', s, hw, hw'⟩
  obtain ⟨init, eof, m, behind, rfl, hreads, hnext, hkind⟩ := Lexer.exists_reads_of_tokens h
  have hparts : blanksOf (partsOf (init ++ [eof])) =
      blanksOf (partsOf init) ++ (blanksOf eof.parts ++ []) := by
    rw [partsOf, List.flatMap_append, List.flatMap_singleton, blanksOf_append, List.append_nil]
    rfl
  rw [hparts] at hblank
  have hstart : Lexer.Along e (blanksOf (partsOf init) ++ (blanksOf eof.parts ++ []))
      (Lexer.ofText (p ++ w ++ s)) (Lexer.ofText (p ++ w' ++ s)) :=
    .before ⟨rfl, List.append_assoc .., List.append_assoc .., Nat.zero_add _, rfl, hblank,
      .cons .code .nil, .empty _⟩
  have horder := Lexer.inOrder_ofText (p ++ w ++ s)
  obtain ⟨us, m', hreads', hus, hm⟩ := hstart.reads horder hreads
  obtain ⟨eof', behind', hnext', hbare, -⟩ := hm.next (hreads.inOrder horder) hnext
  have hkind' : eof'.kind = .eof := (congrArg Prod.fst hbare).trans hkind
  refine ⟨us ++ [eof'], Lexer.tokens_of_reads hreads' hnext' hkind', ?_⟩
  rw [List.map_append, List.map_append, hus, List.map_singleton, List.map_singleton, hbare]

/-- **Indentation does not matter.** Let blanks of a source stand in runs of blanks among the trivia of
its tokens, and exchange them for others. The source so changed has the same tokens, apart from their
places and trivia. It makes a tree exactly when the source did, and what is then drawn of the tokens is
the same, text by text and category by category. -/
theorem indentation_is_immaterial {p w w' s : List Char} (hw : Indents w) (hw' : Indents w')
    {ts : List Token} (h : tokens (p ++ w ++ s) = .ok ts)
    (hblank : ∀ i < w.length, (blanksOf (partsOf ts))[p.length + i]? = some true) :
    (∃ us, tokens (p ++ w' ++ s) = .ok us ∧ us.map Token.bare = ts.map Token.bare) ∧
    ((∃ tree, SourceTree.ofText? (p ++ w ++ s) = .ok tree) ↔
      ∃ tree, SourceTree.ofText? (p ++ w' ++ s) = .ok tree) ∧
    ∀ out, highlight (p ++ w ++ s).utf8Encode = .ok out →
      ∃ out', highlight (p ++ w' ++ s).utf8Encode = .ok out' ∧ semantics out' = semantics out := by
  have hfirst : (blanksOf (partsOf ts))[p.length]? = some true :=
    hblank 0 (List.length_pos_iff.mpr hw.ne_nil)
  obtain ⟨us, hus, hbare⟩ := exists_tokens_exchange hw hw' h hfirst
  refine ⟨⟨us, hus, hbare⟩, ⟨?_, ?_⟩, fun out hout => ?_⟩
  · rintro ⟨tree, htree⟩
    exact exists_ofText?_of_bare h hus hbare htree
  · rintro ⟨tree, htree⟩
    exact exists_ofText?_of_bare hus h hbare.symm htree
  · obtain ⟨tree, htree⟩ := exists_tree_of_highlight hout
    obtain ⟨tree', htree'⟩ := exists_ofText?_of_bare h hus hbare htree
    obtain rfl := Except.ok.inj (hout.symm.trans (highlight_of_tree h htree))
    exact ⟨drawTokens us, highlight_of_tree hus htree',
      semantics_drawTokensFrom hbare (isEmpty_range_of_tokens h) (isEmpty_range_of_tokens hus) none⟩

/-- The blanks behind the opening bracket are passed by the search for the closing one, which remembers
where it stands. -/
theorem indentation_is_immaterial_generic :
    ∃ ts us, tokens ("let a: A<".toList ++ [' '] ++ "B>?".toList) = .ok ts ∧
      tokens ("let a: A<".toList ++ ['\t', ' ', '\t'] ++ "B>?".toList) = .ok us ∧
      us.map Token.bare = ts.map Token.bare ∧
      .rightAngle ∈ ts.map Token.kind := by
  have hw : Indents [' '] := ⟨by decide, by simp [IsBlank]⟩
  have hw' : Indents ['\t', ' ', '\t'] := ⟨by decide, by simp [IsBlank]⟩
  obtain ⟨ts, hts, hknown⟩ : ∃ ts, tokens ("let a: A<".toList ++ [' '] ++ "B>?".toList) = .ok ts ∧
      ((blanksOf (partsOf ts))[9]?, (ts.map Token.kind).contains .rightAngle) = (some true, true) :=
    exists_ok_of_toOption_map (by decide +kernel)
  obtain ⟨hblank, hangle⟩ := Prod.mk.inj hknown
  obtain ⟨⟨us, hus, hbare⟩, -⟩ := indentation_is_immaterial hw hw' hts fun i hi => by
    obtain rfl : i = 0 := by
      rw [List.length_singleton] at hi
      omega
    exact hblank
  exact ⟨ts, us, hts, hus, hbare, List.contains_iff_mem.mp hangle⟩

end SwiftColoring
