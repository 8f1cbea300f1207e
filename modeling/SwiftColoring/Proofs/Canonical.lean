import SwiftColoring.Proofs.Cutting

/-!
# Trivia is attached and cut in one way

Trivia behind a token ends before the line does, and what is attached to the next token starts with the
break. Which pieces there are is told by the source: each is as long as it can be, so that no two of
them could be one.

* `Piece.IsCanonical` — what is said of a piece, by the parts before it and behind it.
* `isBreak_of_mem_trailing`, `Lexer.AwaitsBreak.leading` — on which side of a break trivia is attached.
* `Lexer.isCanonical_of_takes` — every piece that is cut off is canonical.
* `trivia_is_canonical` — the whole statement.
-/

namespace SwiftColoring

-- ---------------------------------------------------------------------------
-- Canonical pieces
-- ---------------------------------------------------------------------------

/-- The text is a comment that ends with its line. -/
structure Comment.IsLine (doc : Bool) (text : List Char) (behind : List Part) : Prop where
  starts : ['/', '/'] <+: text
  doc_iff : doc = true ↔ ['/', '/', '/'] <+: text ∧ ¬ ['/', '/', '/', '/'] <+: text
  unbroken : ∀ c ∈ text, isLineBreak c = false
  ends : Part.textOf behind = [] ∨
    ∃ unit n rest, behind = .piece (.run unit n) :: rest ∧ unit.isBreak = true

/-- The text is all the garbage there is before the next character of another class. -/
structure IsGarbageRun (text : List Char) (behind : List Part) : Prop where
  garbage : ∀ c ∈ text, isGarbage c = true
  ends : ∀ c ∈ (Part.textOf behind).head?, isGarbage c = false

/-- The text is the line at the start of a source that names its interpreter. -/
structure IsScriptLine (before : List Part) (text : List Char) (behind : List Part) : Prop where
  at_start : Part.textOf before = []
  starts : ['#', '!'] <+: text
  unbroken : ∀ c ∈ text, isLineBreak c = false
  ends : ∀ c ∈ (Part.textOf behind).head?, isLineBreak c = true

/-- Between the other parts of a source, the piece is what it should be. -/
structure Piece.IsCanonical (before : List Part) (p : Piece) (behind : List Part) : Prop where
  text_ne_nil : p.text ≠ []
  /-- Repetitions of a unit are one run. -/
  run_alone : ∀ unit m n, p = .run unit m → behind.head? ≠ some (.piece (.run unit n))
  garbage_alone : ∀ text other, p = .garbage text → behind.head? ≠ some (.piece (.garbage other))
  /-- A carriage return and a line feed are one break. -/
  return_alone : ∀ m n, p = .run .carriageReturn m → behind.head? ≠ some (.piece (.run .newline n))
  lineComment : ∀ doc text, p = .lineComment doc text → Comment.IsLine doc text behind
  garbage : ∀ text, p = .garbage text → IsGarbageRun text behind ∨ IsScriptLine before text behind

-- ---------------------------------------------------------------------------
-- Comments and garbage, by the text they start
-- ---------------------------------------------------------------------------

/-- Whether a comment is documentation shows in its own text. -/
theorem isDoc_iff (rest : List Char) :
    Comment.isDoc '/' ('/' :: '/' :: rest) = true ↔
      ['/', '/', '/'] <+: ('/' :: '/' :: rest).takeWhile (fun c => !isLineBreak c) ∧
        ¬ ['/', '/', '/', '/'] <+: ('/' :: '/' :: rest).takeWhile fun c => !isLineBreak c := by
  have hslash : isLineBreak '/' = false := rfl
  match rest with
  | [] => simp [Comment.isDoc, hslash]
  | third :: rest =>
    by_cases hthird : third = '/'
    · subst hthird
      -- a slash in the fourth place makes a ruler of the comment
      match rest with
      | [] => simp [Comment.isDoc, hslash]
      | fourth :: rest =>
        by_cases hfourth : fourth = '/'
        · simp [Comment.isDoc, hslash, hfourth]
        · cases hbreak : isLineBreak fourth <;>
            simp [Comment.isDoc, hslash, hfourth, hbreak, Ne.symm hfourth]
    · cases hbreak : isLineBreak third <;>
        simp [Comment.isDoc, hslash, hthird, hbreak, Ne.symm hthird]

namespace Lexer

variable {source : List Char} {l k m : Lexer} {before behind : List Part} {p : Piece} {q : Part}
  {c : Char} {rest : List Char}

/-- Where a break stands in code, it is cut off. -/
theorem Takes.isBreak (h : l.Takes q k) (hcode : l.context.isCode = true) (hrest : l.rest = c :: rest)
    (hc : isLineBreak c = true) : ∃ unit n, q = .piece (.run unit n) ∧ unit.isBreak = true := by
  obtain ⟨unit, n, hbreak, hstart⟩ := exists_start_of_isLineBreak hc l.before.isEmpty rest
  rw [← hrest] at hstart
  cases h with
  | piece _ hpiece =>
    obtain rfl := GapStart.piece.inj (hpiece.symm.trans hstart)
    exact ⟨unit, n, rfl, hbreak⟩
  | lexeme hstop =>
    rw [hstop hcode] at hstart
    cases hstart

-- ---------------------------------------------------------------------------
-- Pieces between other parts
-- ---------------------------------------------------------------------------

/-- What goes on to the end of the line has the break behind it, or the end of the source. -/
theorem TakesAll.ends_line (h : k.TakesAll behind m) (hcode : k.context.isCode = true)
    (hbreak : ∀ c ∈ k.rest.head?, isLineBreak c = true) (hrest : k.rest = Part.textOf behind) :
    Part.textOf behind = [] ∨
      ∃ unit n rest, behind = .piece (.run unit n) :: rest ∧ unit.isBreak = true := by
  cases h with
  | nil => exact .inl rfl
  | cons hfirst =>
    rw [← hrest]
    cases htext : k.rest with
    | nil => exact .inl rfl
    | cons c text =>
      obtain ⟨unit, n, rfl, hunit⟩ := hfirst.isBreak hcode htext (hbreak c (by rw [htext]; rfl))
      exact .inr ⟨unit, n, _, rfl, hunit⟩

/-- Garbage is all that stands there, or the line that names an interpreter. -/
theorem garbage_of_takes {text : List Char} (hbefore : (ofText source).TakesAll before l)
    (h : l.Takes (.piece (.garbage text)) k) (hrest : k.rest = Part.textOf behind) :
    IsGarbageRun text behind ∨ IsScriptLine before text behind := by
  cases h with
  | piece _ hpiece =>
    replace hrest : l.rest.drop text.length = Part.textOf behind := hrest
    have hbehind := isGarbage_behind_garbage hpiece
    rw [hrest] at hbehind
    cases pieceCase_of_start hpiece with
    | garbage => exact .inl ⟨fun c => List.mem_takeWhile_imp, hbehind⟩
    | script hstart htext =>
      have hsource := hbefore.before_eq
      rw [List.isEmpty_iff.mp hstart] at hsource
      refine .inr ⟨?_, ?_, isLineBreak_of_mem_takeWhile, hrest ▸ isLineBreak_behind_takeWhile _⟩
      · exact List.reverse_eq_nil_iff.mp (List.append_eq_nil_iff.mp hsource.symm).1
      · rw [htext]
        simp [isLineBreak]

/-- A line comment is documentation by its own text, and goes on to the end of the line. -/
theorem lineComment_of_takes {doc : Bool} {text : List Char}
    (h : l.Takes (.piece (.lineComment doc text)) k) (hbehind : k.TakesAll behind m)
    (hrest : k.rest = Part.textOf behind) : Comment.IsLine doc text behind := by
  cases h with
  | piece hcode hpiece =>
    cases pieceCase_of_start hpiece with
    | lineComment htext =>
      refine ⟨?_, ?_, isLineBreak_of_mem_takeWhile, ?_⟩
      · rw [htext]
        simp [isLineBreak]
      · rw [htext]
        exact isDoc_iff _
      · exact hbehind.ends_line hcode (isLineBreak_behind_takeWhile _) hrest

/-- The piece behind another is found where that one ends. -/
theorem TakesAll.start_behind (hbehind : k.TakesAll behind m) (h : l.Takes (.piece p) k) {r : Piece}
    (hr : behind.head? = some (.piece r)) :
    GapStart.ofText false false (l.rest.drop p.text.length) = .piece r := by
  have hempty : k.before.isEmpty = false := by
    rw [h.before_eq]
    simp [Part.text, (GapStart.ofText_eq_piece h.start_of_piece).1]
  have hdrop : l.rest.drop p.text.length = k.rest := by
    rw [h.rest_eq]
    exact List.drop_left
  obtain ⟨n, hn⟩ := hbehind.exists_first hr
  have hstart := hn.start_of_piece
  rwa [hempty, ← hdrop] at hstart

/-- A piece that is cut off is canonical. -/
theorem isCanonical_of_takes (hbefore : (ofText source).TakesAll before l) (h : l.Takes (.piece p) k)
    (hbehind : k.TakesAll behind m) (hend : m.rest = []) : p.IsCanonical before behind := by
  have hrest : k.rest = Part.textOf behind := by
    rw [hbehind.rest_eq, hend, List.append_nil]
  have hpiece := h.start_of_piece
  constructor
  case text_ne_nil => exact (GapStart.ofText_eq_piece hpiece).1
  case run_alone =>
    rintro unit m n rfl hq
    have hmerge := merge?_of_behind hpiece (hbehind.start_behind h hq)
    simp [Piece.merge?] at hmerge
  case garbage_alone =>
    rintro text other rfl hq
    exact not_garbage_behind_garbage hpiece (hbehind.start_behind h hq)
  case return_alone =>
    rintro m n rfl hq
    exact not_newlines_behind_returns hpiece (hbehind.start_behind h hq)
  case lineComment =>
    rintro doc text rfl
    exact lineComment_of_takes h hbehind hrest
  case garbage =>
    rintro text rfl
    exact garbage_of_takes hbefore h hrest

end Lexer

-- ---------------------------------------------------------------------------
-- On which side of a break trivia is attached
-- ---------------------------------------------------------------------------

theorem Gap.isBreak_of_mem {atStart : Bool} {text : List Char} {unit : RunUnit} {n : Nat}
    (h : .run unit n ∈ (ofText true atStart text).pieces) : unit.isBreak = false := by
  generalize htrailing : true = trailing at h
  fun_induction ofText trailing atStart text with
  | case1 | case2 => cases h
  | case3 atStart text p hstart gap ih =>
    subst htrailing
    rcases List.mem_cons.mp h with rfl | hmem
    · exact isBreak_of_trailing hstart
    · exact ih hmem

namespace Lexer

variable {source : List Char} {l behind : Lexer} {ts : List Token} {t : Token}

/-- No break is attached behind a token. -/
theorem isBreak_of_mem_trailing (h : l.next = (.ok t, behind)) {unit : RunUnit} {n : Nat}
    (hmem : .run unit n ∈ t.trailing) : unit.isBreak = false := by
  obtain ⟨leading, here, x, trailing, -, -, htrailing, rfl⟩ := next_ok_iff.mp h
  unfold takeTrailing at htrailing
  split at htrailing
  · obtain ⟨-, rfl, -⟩ := takeGap_ok_iff.mp htrailing
    rw [Trivia.ofList_pieces] at hmem
    exact Gap.isBreak_of_mem hmem
  · cases htrailing
    cases hmem

/-- If any trivia is left in code, it starts with a break. -/
def AwaitsBreak (l : Lexer) : Prop :=
  l.context.isCode = true → GapStart.ofText true l.before.isEmpty l.rest = .nothing

/-- Behind a token, whatever ends no line has been attached to it. -/
theorem awaitsBreak_of_next (h : l.next = (.ok t, behind)) (hkind : t.kind ≠ .eof) :
    behind.AwaitsBreak := by
  intro hcode
  obtain ⟨leading, here, x, trailing, -, -, htrailing, rfl⟩ := next_ok_iff.mp h
  unfold takeTrailing at htrailing
  split at htrailing
  · exact (takeGap_ok htrailing).2
  · rename_i hliteral
    cases htrailing
    rw [hcode, bne_iff_ne.mpr hkind] at hliteral
    exact absurd rfl hliteral

theorem AwaitsBreak.leading (hl : l.AwaitsBreak) (h : l.next = (.ok t, behind)) :
    t.leading = [] ∨ ∃ unit n rest, t.leading = .run unit n :: rest ∧ unit.isBreak = true := by
  obtain ⟨leading, here, x, trailing, hleading, -, -, rfl⟩ := next_ok_iff.mp h
  unfold takeLeading at hleading
  split at hleading
  · rename_i hcode
    obtain ⟨hclosed, rfl, -⟩ := takeGap_ok_iff.mp hleading
    rw [Trivia.ofList_pieces]
    cases hstart : GapStart.ofText false l.before.isEmpty l.rest with
    | nothing => exact .inl (by rw [Gap.ofText_of_nothing hstart])
    | openComment =>
      rw [Gap.ofText_of_openComment hstart] at hclosed
      cases hclosed
    | piece p =>
      obtain ⟨unit, n, rfl, hbreak⟩ := isBreak_of_stop (hl hcode) hstart
      exact .inr ⟨unit, n, _, by rw [Gap.ofText_of_piece hstart], hbreak⟩
  · cases hleading
    exact .inl rfl

theorem Reads.awaitsBreak (h : l.Reads ts behind) (hts : ts ≠ []) : behind.AwaitsBreak := by
  cases h with
  | nil => exact absurd rfl hts
  | snoc _ hnext hkind => exact awaitsBreak_of_next hnext hkind

end Lexer

/-- **Trivia is attached and cut in one way.** Behind a token no break is attached, and whatever is
attached before a token, other than the first, starts with one. Each piece between the parts of a
source is canonical: it has text, no run or garbage follows it that could be one with it, a line
comment goes on to the end of its line, and garbage is either all that stands there or the line
that names an interpreter. -/
theorem trivia_is_canonical {source : List Char} {ts : List Token} (h : tokens source = .ok ts) :
    (∀ t ∈ ts, ∀ unit n, .run unit n ∈ t.trailing → unit.isBreak = false) ∧
    (∀ t ∈ ts.tail, t.leading = [] ∨
      ∃ unit n rest, t.leading = .run unit n :: rest ∧ unit.isBreak = true) ∧
    ∀ before p behind, partsOf ts = before ++ .piece p :: behind → p.IsCanonical before behind := by
  refine ⟨fun t ht unit n hmem => ?_, fun t ht => ?_, fun before p behind hparts => ?_⟩
  · obtain ⟨first, rest, rfl⟩ := List.append_of_mem ht
    obtain ⟨l, behind, -, hnext⟩ := Lexer.exists_next_of_tokens h
    exact Lexer.isBreak_of_mem_trailing hnext hmem
  · -- some token was handed out before this one
    obtain ⟨u, hu⟩ : ∃ u, ts = u :: ts.tail := by
      cases ts with
      | nil => cases ht
      | cons u ts => exact ⟨u, rfl⟩
    obtain ⟨first, rest, hsplit⟩ := List.append_of_mem ht
    rw [hu, hsplit, ← List.cons_append] at h
    obtain ⟨l, behind, hreads, hnext⟩ := Lexer.exists_next_of_tokens h
    exact (hreads.awaitsBreak (List.cons_ne_nil u first)).leading hnext
  · obtain ⟨m, htakes, hend⟩ := Lexer.takesAll_of_tokens h
    rw [hparts] at htakes
    obtain ⟨l, hbefore, hrest⟩ := htakes.exists_between
    cases hrest with
    | cons hp hbehind => exact Lexer.isCanonical_of_takes hbefore hp hbehind hend

/-- The line of the interpreter, a break of either sort, a comment over two lines that stays behind its
token, and garbage up to the break. -/
theorem trivia_is_canonical_script :
    ∃ ts, tokens "#!s\r\r\n///d\na /*\n*/§§\n\n".toList = .ok ts ∧
      ts.map (fun t => (t.leading, t.trailing)) =
        [([.garbage "#!s".toList, .run .carriageReturn 1, .run .returnNewline 1,
            .lineComment true "///d".toList, .run .newline 1],
          [.run .space 1, .blockComment false "/*\n*/".toList, .garbage "§§".toList]),
         ([.run .newline 2], [])] ∧
      (∀ t ∈ ts, ∀ unit n, .run unit n ∈ t.trailing → unit.isBreak = false) ∧
      (∀ t ∈ ts.tail, t.leading = [] ∨
        ∃ unit n rest, t.leading = .run unit n :: rest ∧ unit.isBreak = true) ∧
      ∀ before p behind, partsOf ts = before ++ .piece p :: behind → p.IsCanonical before behind := by
  have htrivia : (tokens "#!s\r\r\n///d\na /*\n*/§§\n\n".toList).toOption.map
      (List.map fun t => (t.leading, t.trailing)) =
        some [([.garbage "#!s".toList, .run .carriageReturn 1, .run .returnNewline 1,
            .lineComment true "///d".toList, .run .newline 1],
          [.run .space 1, .blockComment false "/*\n*/".toList, .garbage "§§".toList]),
         ([.run .newline 2], [])] := by
    decide +kernel
  obtain ⟨ts, hts, htrivia⟩ := exists_ok_of_toOption_map htrivia
  exact ⟨ts, hts, htrivia, trivia_is_canonical hts⟩

end SwiftColoring
