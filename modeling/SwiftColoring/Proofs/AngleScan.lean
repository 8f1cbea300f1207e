import SwiftColoring.Proofs.AngleStep
import SwiftColoring.Proofs.Neighbours

/-!
# Where the search for generic arguments succeeded

The search for generic arguments marks brackets long before they are read, and the marks are only asked
for again where a less-than or a greater-than sign comes up. Between the first bracket of the arguments
and the last one stand few sorts of characters. No comment, quote or number sign starts with them, and so
whatever is cut off there leaves every closing bracket to itself, unless the arguments reach out of an
interpolation into the text of a literal.

* `GenericArguments.Spans`, `GenericArguments.spans_of_marks?` — what a search has passed.
* `Lexer.MarkCase` — what a lexeme has to do with the marks.
* `Lexer.closing_of_takes` — what can be cut off over a mark that closes.
-/

namespace SwiftColoring

open GenericArguments

-- ---------------------------------------------------------------------------
-- What a search has passed
-- ---------------------------------------------------------------------------

namespace GenericArguments

/-- The characters that a search passes. -/
def isPassed (c : Char) : Bool :=
  ['<', '>', '-'].contains c || typeChars.contains c || isWordChar c

/-- The marks of the text from an index on: up to each closing bracket stand only characters that a search
passes, and the less-than signs among them are marked. -/
structure Spans (index : Nat) (text : List Char) (m : AngleMarks) : Prop where
  closes : ∀ i ∈ m.closers, index ≤ i ∧ text[i - index]? = some '>'
  passed : ∀ i ∈ m.closers, ∀ j, index ≤ j → j ≤ i → ∀ c, text[j - index]? = some c →
    isPassed c = true ∧ (c = '<' → j ∈ m.openers)

variable {index : Nat} {c : Char} {text rest : List Char} {m m' : AngleMarks}

theorem Spans.empty (index : Nat) (text : List Char) : Spans index text .empty where
  closes := by simp [AngleMarks.empty]
  passed := by simp [AngleMarks.empty]

/-- One more character before the text. -/
theorem Spans.cons (h : Spans (index + 1) rest m) (hc : isPassed c = true)
    (hopeners : ∀ j ∈ m.openers, j ∈ m'.openers)
    (hclosers : ∀ i ∈ m'.closers, i ∈ m.closers ∨ (i = index ∧ c = '>'))
    (hopens : c = '<' → index ∈ m'.openers) : Spans index (c :: rest) m' := by
  have hbehind : ∀ j, index + 1 ≤ j → (c :: rest)[j - index]? = rest[j - (index + 1)]? := by
    intro j hj
    rw [show j - index = j - (index + 1) + 1 by omega, List.getElem?_cons_succ]
  refine ⟨fun i hi => ?_, fun i hi j hj hle d hd => ?_⟩
  · rcases hclosers i hi with hi | ⟨rfl, rfl⟩
    · obtain ⟨hle, hclose⟩ := h.closes i hi
      exact ⟨Nat.le_of_succ_le hle, (hbehind i hle).trans hclose⟩
    · exact ⟨Nat.le_refl _, by rw [Nat.sub_self]; rfl⟩
  · rcases Nat.eq_or_lt_of_le hj with rfl | hlt
    · rw [Nat.sub_self] at hd
      obtain rfl : c = d := Option.some.inj hd
      exact ⟨hc, hopens⟩
    · have hi : i ∈ m.closers := (hclosers i hi).resolve_right fun heq => by omega
      rw [hbehind j hlt] at hd
      obtain ⟨hpassed, hopen⟩ := h.passed i hi j hlt hle d hd
      exact ⟨hpassed, fun heq => hopeners j (hopen heq)⟩

/-- What a search marks. -/
theorem spans_of_marks? {nested : Nat} {previous : Char} (h : marks? nested previous index text = some m) :
    Spans index text m := by
  induction text generalizing nested previous index m with
  | nil => cases h
  | cons c rest ih =>
    cases markTurn_of_marks? h with
    | opens hm =>
      exact (ih hm).cons rfl (fun j hj => List.mem_cons_of_mem _ hj) (fun i hi => .inl hi)
        fun _ => List.mem_cons_self ..
    | ends hminus =>
      exact (Spans.empty (index + 1) rest).cons rfl (by simp [AngleMarks.empty])
        (fun i hi => .inr ⟨List.mem_singleton.mp hi, rfl⟩) fun hc => absurd hc (by decide)
    | closes hminus hm =>
      exact (ih hm).cons rfl (fun j hj => hj)
        (fun i hi => (List.mem_cons.mp hi).symm.imp_right fun heq => ⟨heq, rfl⟩)
        fun hc => absurd hc (by decide)
    | arrow hminus hm =>
      exact (ih hm).cons rfl (fun j hj => hj) (fun i hi => .inl hi) fun hc => absurd hc (by decide)
    | passes hopen hclose hallowed hm =>
      refine (ih hm).cons ?_ (fun j hj => hj) (fun i hi => .inl hi) fun hc => absurd hc hopen
      rcases hallowed with ⟨rfl, -⟩ | htype | hword
      · rfl
      · rw [isPassed, List.contains_iff_mem.mpr htype, Bool.or_true, Bool.true_or]
      · rw [isPassed, hword, Bool.or_true]

end GenericArguments

namespace Lexer

variable {source : List Char} {l k m : Lexer} {x : Lexeme} {c : Char} {text : List Char} {marks : AngleMarks}
  {p : Part} {parts : List Part} {t : Token} {ts : List Token} {i n start : Nat}

-- ---------------------------------------------------------------------------
-- What a lexeme has to do with the marks
-- ---------------------------------------------------------------------------

/-- The lexer stands at a less-than sign of code that is not known as a bracket, and the search behind it
finds generic arguments with these marks. -/
structure Searches (l : Lexer) (text : List Char) (marks : AngleMarks) : Prop where
  code : l.context.isCode = true
  rest_eq : l.rest = '<' :: text
  unknown : l.index ∉ l.angles.openers
  found : GenericArguments.ofText? l.before.head? l.index text = some marks

/-- What a lexeme has to do with the marks. -/
inductive MarkCase (l : Lexer) (x : Lexeme) : Prop where
  | none (h : l.KeepsAngles x)
  /-- A bracket that starts a search, which puts new marks. -/
  | search {text : List Char} {marks : AngleMarks} (h : l.Searches text marks)
      (hx : x = ⟨.leftAngle, 1, l.contexts, l.angles.append marks⟩)
  /-- A bracket that an earlier search has marked. -/
  | opener {text : List Char} (hrest : l.rest = '<' :: text) (hmem : l.index ∈ l.angles.openers)
      (hx : x = ⟨.leftAngle, 1, l.contexts, l.angles⟩)
  | closer {text : List Char} (hrest : l.rest = '>' :: text) (hmem : l.index ∈ l.angles.closers)
      (hx : x = ⟨.rightAngle, 1, l.contexts, l.angles⟩)

theorem markCase_of_lexeme (hx : l.lexeme = .ok x) : l.MarkCase x := by
  rcases angles_cases hx with hkeeps | ⟨c, text, hcode, hrest, hangle, hlength, hcontexts⟩
  · exact .none hkeeps
  have heq : ∀ kind angles, x.kind = kind → x.angles = angles → x = ⟨kind, 1, l.contexts, angles⟩ := by
    rintro kind angles rfl rfl
    rw [← hlength, ← hcontexts]
  unfold angleBracket? at hangle
  split at hangle
  · rename_i hc
    obtain rfl := eq_of_beq hc
    split at hangle
    · rename_i hmem
      obtain ⟨hkind, hangles⟩ := Prod.mk.inj (Option.some.inj hangle)
      exact .opener hrest (List.contains_iff_mem.mp hmem) (heq _ _ hkind.symm hangles.symm)
    · rename_i hmem
      obtain ⟨marks, hmarks, hpair⟩ := Option.map_eq_some_iff.mp hangle
      obtain ⟨hkind, hangles⟩ := Prod.mk.inj hpair
      exact .search ⟨hcode, hrest, fun h => hmem (List.contains_iff_mem.mpr h), hmarks⟩
        (heq _ _ hkind.symm hangles.symm)
  · split at hangle
    · rename_i hc
      rw [Bool.and_eq_true, beq_iff_eq, List.contains_iff_mem] at hc
      obtain ⟨rfl, hmem⟩ := hc
      obtain ⟨hkind, hangles⟩ := Prod.mk.inj (Option.some.inj hangle)
      exact .closer hrest hmem (heq _ _ hkind.symm hangles.symm)
    · cases hangle

/-- A search that succeeds makes a bracket of its less-than sign. -/
theorem Searches.lexeme_eq (h : l.Searches text marks) :
    l.lexeme = .ok ⟨.leftAngle, 1, l.contexts, l.angles.append marks⟩ := by
  have hangle : l.angleBracket? '<' text = some (.leftAngle, l.angles.append marks) := by
    unfold angleBracket?
    rw [if_pos (beq_self_eq_true '<'), if_neg (by simpa using h.unknown), h.found]
    rfl
  rw [lexeme_of_isCode h.code]
  unfold codeLexeme
  rw [h.rest_eq]
  show Except.ok (l.operatorLexeme '<' text) = _
  rw [operatorLexeme, hangle]
  rfl

/-- A lexeme adds the marks of a search that succeeds at its start, and no others. -/
theorem angles_of_lexeme (hx : l.lexeme = .ok x) :
    (∃ text marks, l.Searches text marks ∧ x.angles = l.angles.append marks) ∨
      (∀ text marks, ¬l.Searches text marks) ∧ x.angles = l.angles := by
  by_cases hsearch : ∃ text marks, l.Searches text marks
  · obtain ⟨text, marks, hsearch⟩ := hsearch
    obtain rfl := Except.ok.inj (hsearch.lexeme_eq.symm.trans hx)
    exact .inl ⟨text, marks, hsearch, rfl⟩
  · refine .inr ⟨fun text marks h => hsearch ⟨text, marks, h⟩, ?_⟩
    cases markCase_of_lexeme hx with
    | none hkeeps => exact hkeeps.angles_eq
    | search h => exact absurd ⟨_, _, h⟩ hsearch
    | opener _ _ hx | closer _ _ hx => rw [hx]

/-- The marks of the search are those of the text behind the less-than sign. -/
theorem Searches.spans (h : l.Searches text marks) : Spans (l.index + 1) text marks := by
  have hfound := h.found
  unfold GenericArguments.ofText? at hfound
  split at hfound
  · exact spans_of_marks? hfound
  · cases hfound

/-- No mark is ever taken back. -/
theorem angles_subset_of_lexeme (hx : l.lexeme = .ok x) :
    l.angles.openers ⊆ x.angles.openers ∧ l.angles.closers ⊆ x.angles.closers := by
  rcases angles_of_lexeme hx with ⟨text, marks, -, hangles⟩ | ⟨-, hangles⟩
  all_goals rw [hangles]
  · exact ⟨List.subset_append_left .., List.subset_append_left ..⟩
  · exact ⟨List.Subset.refl _, List.Subset.refl _⟩

theorem TakesAll.angles_subset (h : l.TakesAll parts m) :
    l.angles.openers ⊆ m.angles.openers ∧ l.angles.closers ⊆ m.angles.closers := by
  induction h with
  | nil => exact ⟨List.Subset.refl _, List.Subset.refl _⟩
  | cons hfirst _ ih =>
    cases hfirst with
    | piece => exact ih
    | lexeme _ hx =>
      obtain ⟨hopeners, hclosers⟩ := angles_subset_of_lexeme hx
      exact ⟨List.Subset.trans hopeners ih.1, List.Subset.trans hclosers ih.2⟩

-- ---------------------------------------------------------------------------
-- What is cut off over a mark
-- ---------------------------------------------------------------------------

/-- An operator does not go on over a mark that closes. -/
theorem not_closer_of_extension (dotted : Bool) (closers : List Nat) (index : Nat) (text : List Char) :
    ∀ j < Operator.extension dotted closers index text, text[j]? = some '>' → index + j ∉ closers := by
  fun_induction Operator.extension dotted closers index text with
  | case1 | case2 | case3 | case4 => intro j hj; exact absurd hj (Nat.not_lt_zero j)
  | case5 index c rest _ _ hcloses ih =>
    intro j hj hclose
    cases j with
    | zero =>
      obtain rfl : c = '>' := Option.some.inj hclose
      simpa using hcloses
    | succ j =>
      rw [← Nat.add_assoc, Nat.add_right_comm]
      exact ih j (by omega) hclose

/-- An operator holds no mark that closes: at its first character, the sign would have become a bracket. -/
theorem not_closer_of_operator {j : Nat} (hangle : l.angleBracket? c text = none)
    (hj : j < 1 + Operator.extension (c == '.') l.angles.closers (l.index + 1) text)
    (hclose : (c :: text)[j]? = some '>') : l.index + j ∉ l.angles.closers := by
  cases j with
  | zero =>
    obtain rfl : c = '>' := Option.some.inj hclose
    intro hmark
    unfold angleBracket? at hangle
    rw [if_neg (by decide), if_pos (by simpa using hmark)] at hangle
    cases hangle
  | succ j =>
    have hlater := not_closer_of_extension (c == '.') l.angles.closers (l.index + 1) text j (by omega) hclose
    rwa [Nat.add_assoc, Nat.add_comm 1] at hlater

/-- Trivia that starts with a character that a search passes holds no bracket. -/
theorem not_mem_of_piece {trailing atStart : Bool} {rest : List Char} {q : Piece}
    (hpiece : GapStart.ofText trailing atStart rest = .piece q)
    (hstart : ∀ c ∈ rest.head?, isPassed c = true) : '>' ∉ q.text := by
  intro hmem
  cases pieceCase_of_start hpiece with
  | @run unit =>
    have hunits : '>' ∉ unit.text := by cases unit <;> decide
    exact hunits (RunUnit.mem_text_of_mem_run hmem)
  | lineComment htext | blockComment htext | script _ htext =>
    have hslash := hstart _ (by rw [htext]; rfl)
    exact absurd hslash (by decide)
  | garbage => exact absurd (List.mem_takeWhile_imp hmem) (by decide)

/-- Over a mark that closes, only the bracket itself and the text of a literal can be cut off, where such
a part starts with a character that a search passes. -/
theorem closing_of_takes (h : l.Takes p m) (hl : l.InOrder source)
    (hmark : i ∈ l.angles.closers) (hle : l.index ≤ i) (hclose : p.text[i - l.index]? = some '>')
    (hstart : ∀ c ∈ l.rest.head?, isPassed c = true) :
    p = .lexeme .rightAngle ['>'] ∨ ∃ text, p = .lexeme .stringSegment text := by
  have hmem : '>' ∈ p.text := List.mem_of_getElem? hclose
  have hhead : ∀ {c rest}, l.rest = c :: rest → isPassed c = false → False := by
    intro c rest hrest hc
    rw [hstart c (by rw [hrest]; rfl)] at hc
    cases hc
  have hone : ∀ {c rest}, l.rest = c :: rest → '>' ∈ l.rest.take 1 → c = '>' := by
    intro c rest hrest hmem
    rw [hrest] at hmem
    exact (List.mem_singleton.mp hmem).symm
  cases h with
  | piece _ hpiece => exact absurd hmem (not_mem_of_piece hpiece hstart)
  | lexeme hstop hx =>
    cases finds_of_lexeme hx with
    | segment => exact .inr ⟨_, rfl⟩
    | @closingQuote multiline _ _ hquote =>
      obtain ⟨rest, hrest⟩ := List.isPrefixOf_iff_prefix.mp hquote
      cases multiline <;> exact (hhead hrest.symm (by decide)).elim
    | backslash _ hopen =>
      rw [StringText.startsInterpolation_eq] at hopen
      obtain ⟨rest, hrest⟩ := List.isPrefixOf_iff_prefix.mp hopen
      exact (hhead hrest.symm (by decide)).elim
    | interpolationParen hcontext =>
      obtain ⟨rest, hrest⟩ := List.head?_eq_some_iff.mp (hl.paren _ hcontext)
      exact absurd (hone hrest hmem) (by decide)
    | eof _ hrest =>
      rw [hrest] at hmem
      cases hmem
    | leftParen _ hrest | interpolationEnd _ hrest | rightParen _ _ hrest | postfixQuestion _ hrest =>
      exact absurd (hone hrest hmem) (by decide)
    | openingQuote _ hrest | rawString _ hrest | poundKeyword _ hrest | pound _ hrest | dollar _ hrest =>
      exact (hhead hrest (by decide)).elim
    | mark _ hrest hmark =>
      obtain rfl := hone hrest hmem
      cases hmark
    | @number c text _ hrest =>
      have hnumber : '>' ∈ (c :: text).take (Number.ofText (c :: text)).2 := hrest ▸ hmem
      exact absurd (Number.isNumberChar_of_mem _ _ hnumber) (by decide)
    | @word c text _ hrest hword =>
      have hchar : '>' ∈ (c :: text).take (1 + (text.takeWhile isWordChar).length) := hrest ▸ hmem
      rw [Nat.add_comm, List.take_succ_cons] at hchar
      rcases List.mem_cons.mp hchar with rfl | hchar
      · exact absurd hword (by decide)
      · exact absurd (of_mem_take_takeWhile hchar) (by decide)
    | angleBracket _ hrest hangle =>
      obtain rfl := hone hrest hmem
      rcases cases_of_angleBracket? hangle with ⟨hc, -⟩ | ⟨-, rfl⟩
      · cases hc
      · left
        show Part.lexeme .rightAngle (l.rest.take 1) = _
        rw [hrest]
        rfl
    | @operator c text length _ hrest hlength _ hangle =>
      have hclose' : ((c :: text).take length)[i - l.index]? = some '>' := hrest ▸ hclose
      rw [List.getElem?_take] at hclose'
      split at hclose'
      · rename_i hlt
        refine absurd hmark ?_
        rw [← Nat.add_sub_cancel' hle]
        exact not_closer_of_operator hangle (hlength ▸ hlt) hclose'
      · cases hclose'
    | unknown hcode hrest hc =>
      have hstart := hstop hcode
      rw [hrest] at hstart
      rw [startsToken_of_stop hstart] at hc
      cases hc

end Lexer

end SwiftColoring
