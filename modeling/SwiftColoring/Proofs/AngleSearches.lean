import SwiftColoring.Proofs.AngleScan
import SwiftColoring.Proofs.Progress

/-!
# Searches of a run

A search for generic arguments is made in the call that hands out its opening bracket, and its marks are
met in later calls. Every mark goes back to one search of the run, and the less-than sign that started it
is a token of its own. Since all less-than signs among the arguments are marked, no other search starts
there.

* `Lexer.SearchedAt` — a search of the run that succeeds.
* `Lexer.mem_angles_afterCalls` — every mark was put by such a search.
* `Lexer.SearchedAt.exists_searched` — the token that a search makes.
* `Lexer.SearchedAt.closing` — what stands over a mark that closes.
* `Lexer.SearchedAt.eq_or_apart` — two searches pass no character both.
* `angle_marks_are_kept` — the whole statement.
-/

namespace SwiftColoring

open GenericArguments

-- ---------------------------------------------------------------------------
-- Searches of a run
-- ---------------------------------------------------------------------------

/-- What is left behind the cursor, told by the index in the source. -/
theorem Cursor.IsIn.getElem?_rest {source : List Char} {c : Cursor} {i : Nat} (h : c.IsIn source)
    (hi : c.index ≤ i) : c.rest[i - c.index]? = source[i]? := by
  rw [← h.drop_index, List.getElem?_drop, Nat.add_sub_cancel' hi]

/-- The number of characters before the text of the token, behind the tokens `before`. -/
def Token.index (before : List Token) (t : Token) : Nat :=
  (before.flatMap Token.fullText ++ t.leading.text).length

namespace Lexer

variable {source : List Char} {l m here : Lexer} {x : Lexeme} {text : List Char} {marks : AngleMarks}
  {leading : Trivia} {parts : List Part} {before behind : List Token} {t : Token} {ts : List Token}
  {i n start : Nat}

/-- In the next call a search for generic arguments starts at the index and succeeds with these marks. -/
def SearchesNext (l : Lexer) (start : Nat) (marks : AngleMarks) : Prop :=
  ∃ leading here text, l.takeLeading = (.ok leading, here) ∧ here.index = start ∧ here.Searches text marks

/-- The same of the call behind `n` others. -/
def SearchedAt (source : List Char) (n start : Nat) (marks : AngleMarks) : Prop :=
  (afterCalls n (ofText source)).SearchesNext start marks

theorem SearchesNext.searches (h : l.SearchesNext start marks)
    (hleading : l.takeLeading = (.ok leading, here)) :
    here.index = start ∧ ∃ text, here.Searches text marks := by
  obtain ⟨_, _, text, hok, hindex, hsearch⟩ := h
  obtain ⟨-, rfl⟩ := Prod.mk.inj (hleading.symm.trans hok)
  exact ⟨hindex, text, hsearch⟩

/-- One call searches once at most. -/
theorem SearchesNext.unique {start' : Nat} {marks' : AngleMarks} (h : l.SearchesNext start marks)
    (h' : l.SearchesNext start' marks') : start = start' ∧ marks = marks' := by
  obtain ⟨leading, here, text, hleading, rfl, hsearch⟩ := h
  obtain ⟨hindex, text', hsearch'⟩ := h'.searches hleading
  obtain ⟨-, rfl⟩ := List.cons.inj (hsearch.rest_eq.symm.trans hsearch'.rest_eq)
  exact ⟨hindex, Option.some.inj (hsearch.found.symm.trans hsearch'.found)⟩

/-- What a call does to the marks, its lexeme does. -/
theorem angles_next_of_lexeme (hleading : l.takeLeading = (.ok leading, here)) (hx : here.lexeme = .ok x) :
    l.next.2.angles = x.angles := by
  obtain ⟨m, hm⟩ := (here.accept x).takeTrailing_advance x.kind
  have hbehind : ((here.accept x).takeTrailing x.kind).2.angles = x.angles := congrArg angles hm
  unfold next
  simp only [hleading, hx]
  rw [← hbehind]
  split <;> rename_i heq <;> rw [heq]

/-- A call adds the marks of a search that succeeds in it, and no others. -/
theorem angles_next (l : Lexer) :
    (∃ start marks, l.SearchesNext start marks ∧ l.next.2.angles = l.angles.append marks) ∨
      (∀ start marks, ¬l.SearchesNext start marks) ∧ l.next.2.angles = l.angles := by
  obtain ⟨n, hn⟩ := l.takeLeading_advance
  rcases hleading : l.takeLeading with ⟨failure | leading, here⟩
  all_goals
    rw [hleading] at hn
    have hangles : here.angles = l.angles := by
      rw [show here = l.advance n from hn]
      rfl
  · refine .inr ⟨?_, ?_⟩
    · rintro start marks ⟨_, _, _, hok, -⟩
      cases hleading.symm.trans hok
    · rw [← hangles, next, hleading]
  cases hx : here.lexeme with
  | error stop =>
    refine .inr ⟨fun start marks h => ?_, ?_⟩
    · obtain ⟨-, text, hsearch⟩ := h.searches hleading
      cases hsearch.lexeme_eq.symm.trans hx
    · rw [← hangles, next, hleading]
      simp only [hx]
      rfl
  | ok x =>
    rw [angles_next_of_lexeme hleading hx, ← hangles]
    rcases angles_of_lexeme hx with ⟨text, marks, hsearch, hadds⟩ | ⟨hnone, hsame⟩
    · exact .inl ⟨here.index, marks, ⟨leading, here, text, hleading, rfl, hsearch⟩, hadds⟩
    · refine .inr ⟨fun start marks h => ?_, hsame⟩
      obtain ⟨-, text, hsearch⟩ := h.searches hleading
      exact hnone text marks hsearch

section Sides

-- the marks are looked at on one side, that of the openers or that of the closers
variable (side : AngleMarks → List Nat) (happend : ∀ a b : AngleMarks, side (a.append b) = side a ++ side b)

include happend

theorem mem_angles_next (l : Lexer) : i ∈ side l.next.2.angles ↔
    i ∈ side l.angles ∨ ∃ start marks, l.SearchesNext start marks ∧ i ∈ side marks := by
  rcases l.angles_next with ⟨start, marks, hsearch, hadds⟩ | ⟨hnone, hsame⟩
  · rw [hadds, happend, List.mem_append]
    refine or_congr_right ⟨fun hi => ⟨start, marks, hsearch, hi⟩, ?_⟩
    rintro ⟨start', marks', hsearch', hi⟩
    obtain ⟨-, rfl⟩ := hsearch.unique hsearch'
    exact hi
  · rw [hsame]
    exact (or_iff_left fun ⟨start, marks, hsearch, _⟩ => hnone start marks hsearch).symm

/-- The marks that the lexer knows are those that searches of the calls before have put. -/
theorem mem_angles_afterCalls (hempty : side .empty = []) (n : Nat) :
    i ∈ side (afterCalls n (ofText source)).angles ↔
      ∃ k start marks, k < n ∧ SearchedAt source k start marks ∧ i ∈ side marks := by
  induction n with
  | zero =>
    rw [show (afterCalls 0 (ofText source)).angles = .empty from rfl, hempty]
    simp
  | succ n ih =>
    rw [afterCalls_succ, mem_angles_next side happend, ih]
    constructor
    · rintro (⟨k, start, marks, hk, hsearched⟩ | ⟨start, marks, hsearched⟩)
      · exact ⟨k, start, marks, Nat.lt_succ_of_lt hk, hsearched⟩
      · exact ⟨n, start, marks, Nat.lt_succ_self n, hsearched⟩
    · rintro ⟨k, start, marks, hk, hsearched⟩
      rcases Nat.lt_succ_iff_lt_or_eq.mp hk with hk | rfl
      · exact .inl ⟨k, start, marks, hk, hsearched⟩
      · exact .inr ⟨start, marks, hsearched⟩

end Sides

/-- The lexer stands at the text of the token behind the others, and finds the lexeme there. -/
structure StandsAt (source : List Char) (before : List Token) (t : Token) (here : Lexer) (x : Lexeme) :
    Prop where
  leading_eq : (afterCalls before.length (ofText source)).takeLeading = (.ok t.leading, here)
  lexeme_eq : here.lexeme = .ok x
  kind_eq : t.kind = x.kind
  text_eq : t.text = here.rest.take x.length
  takes : (ofText source).TakesAll (partsOf before ++ t.leading.map .piece) here

theorem TakesAll.index_eq (h : (ofText source).TakesAll parts m) :
    m.index = (Part.textOf parts).length := by
  rw [(h.inOrder (inOrder_ofText source)).isIn.index_eq, h.before_eq, List.length_append,
    List.length_reverse]
  rfl

theorem StandsAt.index_eq {here : Lexer} (h : StandsAt source before t here x) :
    here.index = t.index before := by
  rw [h.takes.index_eq, Part.textOf_append, textOf_partsOf, Part.textOf_pieces]
  rfl

theorem exists_standsAt (h : (ofText source).Reads before l) (hnext : l.next = (.ok t, m)) :
    ∃ here x, StandsAt source before t here x ∧ here.angles = l.angles := by
  obtain ⟨leading, here, x, trailing, hleading, hx, htrailing, rfl⟩ := next_ok_iff.mp hnext
  have hbefore := (takeLeading_ok hleading).1.eq_advance
  refine ⟨here, x, ⟨?_, hx, rfl, rfl, ?_⟩, by rw [hbefore]; rfl⟩
  · rw [← h.eq_afterCalls]
    exact hleading
  · exact h.takesAll.append (takesAll_takeLeading hleading)

/-- A search of the run, with the token that it makes of its less-than sign. -/
structure Searched (source : List Char) (before : List Token) (t : Token) (text : List Char)
    (marks : AngleMarks) (here k : Lexer) : Prop where
  front : (ofText source).TakesAll (partsOf before ++ t.leading.map .piece) here
  index_eq : here.index = t.index before
  searches : here.Searches text marks
  kind_eq : t.kind = .leftAngle
  text_eq : t.text = ['<']
  takes : here.Takes (.lexeme .leftAngle ['<']) k
  angles_eq : k.angles = here.angles.append marks

/-- Where nothing is left, calls leave nothing. -/
theorem rest_afterCalls (h : l.rest = []) (n : Nat) : (afterCalls n l).rest = [] := by
  induction n generalizing l with
  | zero => exact h
  | succ n ih =>
    refine ih ?_
    obtain ⟨k, hk⟩ := l.next_advance
    rw [hk, Cursor.advance_rest, h, List.drop_nil]

/-- A search that succeeds is made in a call for one of the tokens. -/
theorem SearchedAt.lt_length (h : SearchedAt source n start marks) (hts : tokens source = .ok ts) :
    n < ts.length := by
  by_contra hn
  obtain ⟨leading, here, text, hleading, -, hsearch⟩ := h
  obtain ⟨init, eof, m, last, rfl, hreads, hnext, hkind⟩ := exists_reads_of_tokens hts
  obtain ⟨_, _, hcut⟩ := next_cut hnext
  -- behind the end of the source nothing is left to search
  have hlast : last = afterCalls (init.length + 1) (ofText source) := by
    rw [afterCalls_succ, ← hreads.eq_afterCalls, hnext]
  obtain ⟨k, rfl⟩ := Nat.exists_eq_add_of_le (Nat.not_lt.mp hn)
  have hrest : (afterCalls ((init ++ [eof]).length + k) (ofText source)).rest = [] := by
    rw [List.length_append, List.length_singleton, afterCalls_add, ← hlast]
    exact rest_afterCalls (hcut.rest_of_eof hkind) k
  obtain ⟨j, hj⟩ := takeLeading_advance (afterCalls ((init ++ [eof]).length + k) (ofText source))
  rw [hleading] at hj
  obtain rfl : here = _ := hj
  have hsign := hsearch.rest_eq
  rw [advance_toCursor, Cursor.advance_rest, hrest, List.drop_nil] at hsign
  cases hsign

theorem SearchedAt.exists_searched (h : SearchedAt source n start marks) (hts : tokens source = .ok ts) :
    ∃ before t behind text here k, ts = before ++ t :: behind ∧ before.length = n ∧
      t.index before = start ∧ Searched source before t text marks here k := by
  have hn := h.lt_length hts
  obtain ⟨leading, here, text, hleading, hstart, hsearch⟩ := h
  have hsplit : ts = ts.take n ++ ts[n] :: ts.drop (n + 1) := by
    rw [List.getElem_cons_drop, List.take_append_drop]
  have hlength : (ts.take n).length = n := List.length_take_of_le (Nat.le_of_lt hn)
  rw [hsplit] at hts
  obtain ⟨l, m, hreads, hnext⟩ := exists_next_of_tokens hts
  obtain ⟨here', x, hstands, -⟩ := exists_standsAt hreads hnext
  obtain ⟨here'', k, -, hfront, htakes, -⟩ := exists_takes_of_tokens hts
  -- the three agree on where the lexer stands
  have hsame := hstands.leading_eq
  rw [hlength, hleading] at hsame
  obtain ⟨-, rfl⟩ := Prod.mk.inj hsame
  obtain rfl := hfront.eq_of_takesAll hstands.takes
  have hx := Except.ok.inj (hstands.lexeme_eq.symm.trans hsearch.lexeme_eq)
  have hkind : ts[n].kind = .leftAngle := by rw [hstands.kind_eq, hx]
  have htext : ts[n].text = ['<'] := by
    rw [hstands.text_eq, hx, hsearch.rest_eq]
    rfl
  rw [hkind, htext] at htakes
  have hangles : k.angles = here''.angles.append marks := by
    obtain ⟨x', hx', rfl⟩ := htakes.exists_lexeme
    obtain rfl := Except.ok.inj (hx'.symm.trans hstands.lexeme_eq)
    exact congrArg Lexeme.angles hx
  exact ⟨_, _, _, text, _, k, hsplit, hlength, by rw [← hstands.index_eq, hstart], hfront,
    hstands.index_eq, hsearch, hkind, htext, htakes, hangles⟩

namespace Searched

variable {here k : Lexer}

theorem inOrder (h : Searched source before t text marks here k) : here.InOrder source :=
  h.front.inOrder (inOrder_ofText source)

/-- What the source holds behind the less-than sign. -/
theorem getElem?_eq (h : Searched source before t text marks here k) (hi : here.index + 1 ≤ i) :
    source[i]? = text[i - (here.index + 1)]? := by
  rw [← h.inOrder.isIn.getElem?_rest (Nat.le_of_succ_le hi), h.searches.rest_eq,
    show i - here.index = i - (here.index + 1) + 1 by omega, List.getElem?_cons_succ]

theorem closes (h : Searched source before t text marks here k) (hi : i ∈ marks.closers) :
    here.index + 1 ≤ i ∧ source[i]? = some '>' := by
  obtain ⟨hle, hclose⟩ := h.searches.spans.closes i hi
  exact ⟨hle, (h.getElem?_eq hle).trans hclose⟩

/-- The characters up to a closing mark are passed, and the less-than signs among them are marked. -/
theorem passed {j : Nat} {c : Char} (h : Searched source before t text marks here k)
    (hi : i ∈ marks.closers) (hj : here.index + 1 ≤ j) (hle : j ≤ i) (hc : source[j]? = some c) :
    isPassed c = true ∧ (c = '<' → j ∈ marks.openers) :=
  h.searches.spans.passed i hi j hj hle c ((h.getElem?_eq hj).symm.trans hc)

/-- Behind the bracket that starts the search, its marks are known. -/
theorem marks_subset (h : Searched source before t text marks here k)
    (hall : (ofText source).TakesAll
      (partsOf before ++ t.leading.map .piece ++ .lexeme .leftAngle ['<'] :: parts) m) :
    here.index + 1 ≤ m.index ∧ marks.openers ⊆ m.angles.openers ∧ marks.closers ⊆ m.angles.closers := by
  have hsign : (Part.lexeme Kind.leftAngle ['<']).text.length = 1 := rfl
  refine ⟨?_, ?_⟩
  · rw [hall.index_eq, h.front.index_eq, Part.textOf_append (partsOf before ++ _), Part.textOf_cons,
      List.length_append, List.length_append]
    omega
  obtain ⟨here', hfront, hback⟩ := hall.exists_between
  obtain rfl := hfront.eq_of_takesAll h.front
  cases hback with
  | cons htakes hbehind =>
    obtain rfl := htakes.eq_of_takes h.takes
    obtain ⟨hopeners, hclosers⟩ := hbehind.angles_subset
    rw [h.angles_eq] at hopeners hclosers
    exact ⟨List.Subset.trans (List.subset_append_right ..) hopeners,
      List.Subset.trans (List.subset_append_right ..) hclosers⟩

end Searched

end Lexer

-- ---------------------------------------------------------------------------
-- Parts about a mark
-- ---------------------------------------------------------------------------

/-- Among these parts, the part holds the character at the index. -/
def Part.Covers (parts : List Part) (p : Part) (i : Nat) : Prop :=
  ∃ front others, parts = front ++ p :: others ∧ (textOf front).length ≤ i ∧
    i < (textOf front).length + p.text.length

theorem Part.exists_covers {i : Nat} {parts : List Part} (hi : i < (textOf parts).length) :
    ∃ p, Covers parts p i := by
  induction parts generalizing i with
  | nil => cases hi
  | cons p parts ih =>
    by_cases hfirst : i < p.text.length
    · exact ⟨p, [], parts, rfl, Nat.zero_le i, by rwa [textOf_nil, List.length_nil, Nat.zero_add]⟩
    · rw [textOf_cons, List.length_append] at hi
      obtain ⟨q, front, others, rfl, hle, hlt⟩ := ih (i := i - p.text.length) (by omega)
      refine ⟨q, p :: front, others, rfl, ?_, ?_⟩
      all_goals
        rw [textOf_cons, List.length_append]
        omega

/-- Of two splits of a list, one comes first. -/
theorem exists_between_of_length_lt {α : Type} {front front' others others' : List α} {a b : α}
    (h : front ++ a :: others = front' ++ b :: others') (hlt : front.length < front'.length) :
    ∃ between, front' = front ++ a :: between := by
  rcases List.append_eq_append_iff.mp h with ⟨between, rfl, hrest⟩ | ⟨between, rfl, -⟩
  · cases between with
    | nil => rw [List.append_nil] at hlt; exact absurd hlt (Nat.lt_irrefl _)
    | cons c between =>
      obtain ⟨rfl, -⟩ := List.cons.inj hrest
      exact ⟨between, rfl⟩
  · rw [List.length_append] at hlt
    omega

namespace Lexer

variable {source text : List Char} {before behind : List Token} {t : Token} {marks : AngleMarks}
  {here k : Lexer} {p : Part} {i : Nat}

/-- A part that holds a closing mark stands behind the bracket that starts the search. -/
theorem Searched.exists_between (h : Searched source before t text marks here k) {front others : List Part}
    (hparts : partsOf (before ++ t :: behind) = front ++ p :: others) (hi : here.index + 1 ≤ i)
    (hlt : i < (Part.textOf front).length + p.text.length) :
    ∃ between, front = partsOf before ++ t.leading.map .piece ++ .lexeme .leftAngle ['<'] :: between := by
  rw [partsOf_split, h.kind_eq, h.text_eq] at hparts
  rw [h.front.index_eq] at hi
  rcases Nat.lt_trichotomy front.length (partsOf before ++ t.leading.map Part.piece).length with
    hless | heq | hmore
  · -- the part would end before the bracket
    obtain ⟨between, hfront⟩ := exists_between_of_length_lt hparts.symm hless
    rw [hfront, Part.textOf_append, Part.textOf_cons, List.length_append, List.length_append] at hi
    omega
  · -- the part would be the bracket
    obtain ⟨rfl, hrest⟩ := List.append_inj hparts.symm heq
    obtain ⟨rfl, -⟩ := List.cons.inj hrest
    exact absurd hlt (Nat.not_lt.mpr hi)
  · exact exists_between_of_length_lt hparts hmore

/-- Over a closing mark stands the bracket, or text of a literal. -/
theorem Searched.closing_of_covers (h : Searched source before t text marks here k)
    (hts : tokens source = .ok (before ++ t :: behind)) (hi : i ∈ marks.closers)
    (hp : Part.Covers (partsOf (before ++ t :: behind)) p i) :
    p = .lexeme .rightAngle ['>'] ∨ ∃ text, p = .lexeme .stringSegment text := by
  obtain ⟨front, others, hparts, hle, hlt⟩ := hp
  obtain ⟨hindex, hclose⟩ := h.closes hi
  obtain ⟨between, hfront⟩ := h.exists_between hparts hindex hlt
  obtain ⟨last, hall, -⟩ := takesAll_of_tokens hts
  rw [hparts] at hall
  obtain ⟨j, hbefore, hback⟩ := hall.exists_between
  have hin := hbefore.inOrder (inOrder_ofText source)
  rw [← hbefore.index_eq] at hle hlt
  rw [hfront] at hbefore
  obtain ⟨hbehind, -, hclosers⟩ := h.marks_subset hbefore
  cases hback with
  | cons htakes =>
    refine closing_of_takes htakes hin (hclosers hi) hle ?_ fun c hc => ?_
    · rw [← hclose, ← hin.isIn.getElem?_rest hle, htakes.rest_eq, List.getElem?_append_left (by omega)]
    · exact (h.passed hi hbehind hle (hin.isIn.getElem?_index.trans hc)).1

end Lexer

-- ---------------------------------------------------------------------------
-- The whole statement
-- ---------------------------------------------------------------------------

/-- The index lies between the less-than sign that starts a search and the last bracket that it marks. -/
def GenericArguments.InRange (start : Nat) (marks : AngleMarks) (j : Nat) : Prop :=
  start ≤ j ∧ ∃ i ∈ marks.closers, j ≤ i

namespace Lexer

variable {source : List Char} {before behind : List Token} {t : Token} {ts : List Token}
  {marks marks' : AngleMarks} {n n' start start' i j : Nat}

/-- Over each closing mark stands a greater-than sign, which is a bracket or text of a literal. -/
theorem SearchedAt.closing (h : SearchedAt source n start marks) (hts : tokens source = .ok ts)
    (hi : i ∈ marks.closers) :
    source[i]? = some '>' ∧ (∃ p, Part.Covers (partsOf ts) p i) ∧
      ∀ p, Part.Covers (partsOf ts) p i →
        p = .lexeme .rightAngle ['>'] ∨ ∃ text, p = .lexeme .stringSegment text := by
  obtain ⟨before, t, behind, text, here, k, rfl, -, -, hs⟩ := h.exists_searched hts
  have hclose := (hs.closes hi).2
  refine ⟨hclose, ?_, fun p hp => hs.closing_of_covers hts hi hp⟩
  obtain ⟨last, hall, hnone⟩ := takesAll_of_tokens hts
  have hsource : source = Part.textOf (partsOf (before ++ t :: behind)) := by
    have hrest := hall.rest_eq
    rwa [hnone, List.append_nil] at hrest
  obtain ⟨hlt, -⟩ := List.getElem?_eq_some_iff.mp hclose
  rw [hsource] at hlt
  exact Part.exists_covers hlt

/-- No search starts in the range of an earlier one. -/
theorem SearchedAt.not_inRange_of_lt (h : SearchedAt source n start marks)
    (h' : SearchedAt source n' start' marks') (hts : tokens source = .ok ts) (hlt : n < n')
    (hj : InRange start marks j) : ¬InRange start' marks' j := by
  intro hj'
  obtain ⟨before, t, behind, text, here, k, hsplit, rfl, rfl, hs⟩ := h.exists_searched hts
  obtain ⟨before', t', behind', text', here', k', hsplit', rfl, rfl, hs'⟩ := h'.exists_searched hts
  obtain ⟨between, rfl⟩ := exists_between_of_length_lt (hsplit.symm.trans hsplit') hlt
  have hfront := hs'.front
  rw [partsOf_split, hs.kind_eq, hs.text_eq, List.append_assoc _ _ (t'.leading.map _),
    List.cons_append] at hfront
  obtain ⟨hbehind, hopeners, -⟩ := hs.marks_subset hfront
  obtain ⟨-, i, hi, hle⟩ := hj
  have hsign : source[here'.index]? = some '<' := by
    rw [hs'.inOrder.isIn.getElem?_index, hs'.searches.rest_eq]
    rfl
  have hstart : here'.index ≤ i := hs'.index_eq ▸ Nat.le_trans hj'.1 hle
  -- the first search has marked the sign, so the second one does not start there
  exact hs'.searches.unknown (hopeners ((hs.passed hi hbehind hstart hsign).2 rfl))

/-- Two searches are one, or their ranges lie apart. -/
theorem SearchedAt.eq_or_apart (h : SearchedAt source n start marks)
    (h' : SearchedAt source n' start' marks') (hts : tokens source = .ok ts) :
    (n = n' ∧ start = start' ∧ marks = marks') ∨
      ∀ j, ¬(InRange start marks j ∧ InRange start' marks' j) := by
  rcases Nat.lt_trichotomy n n' with hlt | rfl | hlt
  · exact .inr fun j hj => h.not_inRange_of_lt h' hts hlt hj.1 hj.2
  · exact .inl ⟨rfl, h.unique h'⟩
  · exact .inr fun j hj => h'.not_inRange_of_lt h hts hlt hj.2 hj.1

/-- A closing bracket was marked by a search from an opening one before it. -/
theorem exists_searchedAt_of_rightAngle (hts : tokens source = .ok (before ++ t :: behind))
    (hkind : t.kind = .rightAngle) :
    ∃ earlier u between marks, before = earlier ++ u :: between ∧ u.kind = .leftAngle ∧
      SearchedAt source earlier.length (u.index earlier) marks ∧ t.index before ∈ marks.closers := by
  obtain ⟨l, m, hreads, hnext⟩ := exists_next_of_tokens hts
  obtain ⟨here, x, hstands, hangles⟩ := exists_standsAt hreads hnext
  rw [hstands.kind_eq] at hkind
  cases markCase_of_lexeme hstands.lexeme_eq with
  | none hkeeps => exact absurd hkind hkeeps.ne_rightAngle
  | search _ hx | opener _ _ hx => rw [hx] at hkind; cases hkind
  | closer _ hmem =>
    rw [hangles, hreads.eq_afterCalls] at hmem
    obtain ⟨n, start, marks, hn, hsearch, hi⟩ :=
      (mem_angles_afterCalls AngleMarks.closers (fun _ _ => rfl) rfl _).mp hmem
    obtain ⟨earlier, u, _, _, _, _, hsplit, rfl, rfl, hs⟩ := hsearch.exists_searched hts
    obtain ⟨between, rfl⟩ := exists_between_of_length_lt hsplit.symm hn
    exact ⟨earlier, u, between, marks, rfl, hs.kind_eq, hsearch, hstands.index_eq ▸ hi⟩

/-- An opening bracket starts a search, or was marked by an earlier one. -/
theorem searchedAt_of_leftAngle (hts : tokens source = .ok (before ++ t :: behind))
    (hkind : t.kind = .leftAngle) :
    source[t.index before]? = some '<' ∧
      ((∃ marks, SearchedAt source before.length (t.index before) marks) ∨
        ∃ n start marks, n < before.length ∧ SearchedAt source n start marks ∧
          t.index before ∈ marks.openers) := by
  obtain ⟨l, m, hreads, hnext⟩ := exists_next_of_tokens hts
  obtain ⟨here, x, hstands, hangles⟩ := exists_standsAt hreads hnext
  have hin := (hstands.takes.inOrder (inOrder_ofText source)).isIn
  rw [hstands.kind_eq] at hkind
  rw [← hstands.index_eq, hin.getElem?_index]
  cases markCase_of_lexeme hstands.lexeme_eq with
  | none hkeeps => exact absurd hkind hkeeps.ne_leftAngle
  | @search text marks hsearch =>
    refine ⟨by rw [hsearch.rest_eq]; rfl, .inl ⟨marks, ?_⟩⟩
    exact ⟨t.leading, here, text, hstands.leading_eq, rfl, hsearch⟩
  | opener hrest hmem =>
    rw [hangles, hreads.eq_afterCalls] at hmem
    exact ⟨by rw [hrest]; rfl,
      .inr ((mem_angles_afterCalls AngleMarks.openers (fun _ _ => rfl) rfl _).mp hmem)⟩
  | closer _ _ hx => rw [hx] at hkind; cases hkind

end Lexer

open Lexer

/-- What becomes of the marks that searches for generic arguments put. -/
structure MarksKept (source : List Char) (ts : List Token) : Prop where
  /-- The lexer knows the marks of the searches made so far. -/
  known : ∀ n i,
    (i ∈ (afterCalls n (ofText source)).angles.openers ↔
      ∃ k start marks, k < n ∧ SearchedAt source k start marks ∧ i ∈ marks.openers) ∧
    (i ∈ (afterCalls n (ofText source)).angles.closers ↔
      ∃ k start marks, k < n ∧ SearchedAt source k start marks ∧ i ∈ marks.closers)
  /-- A closing mark stands at a greater-than sign, and whatever part of a token holds the sign is this
  bracket alone, or text of a literal. -/
  closing : ∀ n start marks, SearchedAt source n start marks → ∀ i ∈ marks.closers,
    source[i]? = some '>' ∧ (∃ p, Part.Covers (partsOf ts) p i) ∧
      ∀ p, Part.Covers (partsOf ts) p i →
        p = .lexeme .rightAngle ['>'] ∨ ∃ text, p = .lexeme .stringSegment text
  /-- A closing bracket stands at a mark of a search that an opening bracket before it has started. -/
  rightAngle : ∀ before t behind, ts = before ++ t :: behind → t.kind = .rightAngle →
    ∃ earlier u between marks, before = earlier ++ u :: between ∧ u.kind = .leftAngle ∧
      SearchedAt source earlier.length (u.index earlier) marks ∧ t.index before ∈ marks.closers
  /-- An opening bracket starts a search, or stands at a mark of an earlier one. -/
  leftAngle : ∀ before t behind, ts = before ++ t :: behind → t.kind = .leftAngle →
    source[t.index before]? = some '<' ∧
      ((∃ marks, SearchedAt source before.length (t.index before) marks) ∨
        ∃ n start marks, n < before.length ∧ SearchedAt source n start marks ∧
          t.index before ∈ marks.openers)
  /-- The ranges of two searches do not overlap. -/
  apart : ∀ n start marks n' start' marks', SearchedAt source n start marks →
    SearchedAt source n' start' marks' → (n = n' ∧ start = start' ∧ marks = marks') ∨
      ∀ j, ¬(InRange start marks j ∧ InRange start' marks' j)

/-- **Marks of generic arguments are kept.** Every mark that a search for generic arguments has put is met
by its own bracket, or by the text of a literal where the arguments reach out of an interpolation. No
other brackets are read, and no two searches pass the same character. -/
theorem angle_marks_are_kept {source : List Char} {ts : List Token} (h : tokens source = .ok ts) :
    MarksKept source ts where
  known n i := ⟨mem_angles_afterCalls AngleMarks.openers (fun _ _ => rfl) rfl n,
    mem_angles_afterCalls AngleMarks.closers (fun _ _ => rfl) rfl n⟩
  closing _ _ _ hsearch _ hi := hsearch.closing h hi
  rightAngle before t behind hts hkind := by
    rw [hts] at h
    exact exists_searchedAt_of_rightAngle h hkind
  leftAngle before t behind hts hkind := by
    rw [hts] at h
    exact searchedAt_of_leftAngle h hkind
  apart _ _ _ _ _ _ hsearch hsearch' := hsearch.eq_or_apart hsearch' h

/-- The second of these brackets closes nothing in the interpolation: the search has passed its end, and
the mark is met by the text behind it. -/
theorem angle_marks_are_kept_interpolated :
    ∃ ts, tokens "\"\\(a<b)> c\"".toList = .ok ts ∧
      ts.map (fun t => (t.kind, t.text)) =
        [(.quote, ['"']), (.backslash, ['\\']), (.leftParen, ['(']), (.identifier, ['a']),
          (.leftAngle, ['<']), (.identifier, ['b']), (.interpolationEnd, [')']),
          (.stringSegment, ['>', ' ', 'c']), (.quote, ['"']), (.eof, [])] ∧
      MarksKept "\"\\(a<b)> c\"".toList ts := by
  have hshapes : (tokens "\"\\(a<b)> c\"".toList).toOption.map
      (List.map fun t => (t.kind, t.text)) =
        some [(.quote, ['"']), (.backslash, ['\\']), (.leftParen, ['(']),
          (.identifier, ['a']), (.leftAngle, ['<']), (.identifier, ['b']), (.interpolationEnd, [')']),
          (.stringSegment, ['>', ' ', 'c']), (.quote, ['"']), (.eof, [])] := by
    decide +kernel
  obtain ⟨ts, hts, hmap⟩ := exists_ok_of_toOption_map hshapes
  exact ⟨ts, hts, hmap, angle_marks_are_kept hts⟩

end SwiftColoring
