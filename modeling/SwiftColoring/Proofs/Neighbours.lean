import SwiftColoring.Proofs.Cutting
import SwiftColoring.Proofs.Spelling
import SwiftColoring.Proofs.Stop

/-!
# What stands beside an operator

Whether an operator is bound on a side is read off one or two characters there. What those characters
are is told by the part that they belong to: what a part ends with, if an operator can follow it, and
what it starts with.

* `Part.bindsOnLeft`, `Part.bindsOnRight` — the parts that bind an operator beside them.
* `Lexer.EndCase`, `Lexer.endCase_of_takes` — what the part before the cursor ends with.
* `Lexer.isRightBound_of_takes` — the characters behind the cursor say what the next part does.
-/

namespace SwiftColoring

/-- Tokens of this kind are operators. -/
def Kind.isOperator : Kind → Bool
  | .spacedBinary | .unspacedBinary | .prefixOperator | .postfixOperator | .prefixAmpersand
  | .exclamation | .infixQuestion | .postfixQuestion | .equal | .arrow | .period | .prefixPeriod => true
  | _ => false

/-- The part binds an operator directly behind it: blanks, comments and what separates or opens do not. -/
def Part.bindsOnLeft : Part → Bool
  | .piece (.run .backtick _) | .piece (.garbage _) => true
  | .piece _ => false
  | .lexeme .leftParen _ | .lexeme .leftBracket _ | .lexeme .leftBrace _
  | .lexeme .comma _ | .lexeme .semicolon _ | .lexeme .colon _ => false
  | .lexeme _ _ => true

/-- The part binds an operator directly before it: blanks, comments and what separates or closes do not,
and neither does the end of the source. -/
def Part.bindsOnRight : Part → Bool
  | .piece (.run .backtick _) | .piece (.garbage _) => true
  | .piece _ => false
  | .lexeme .rightParen _ | .lexeme .interpolationEnd _ | .lexeme .rightBracket _
  | .lexeme .rightBrace _ | .lexeme .comma _ | .lexeme .semicolon _ | .lexeme .colon _
  | .lexeme .eof _ => false
  | .lexeme _ _ => true

theorem bindsOnLeft_of_isRun {kind : Kind} (h : kind.isRun = true) (text : List Char) :
    (Part.lexeme kind text).bindsOnLeft = true := by
  cases kind <;> first | rfl | cases h

theorem bindsOnRight_of_isRun {kind : Kind} (h : kind.isRun = true) (text : List Char) :
    (Part.lexeme kind text).bindsOnRight = true := by
  cases kind <;> first | rfl | cases h

theorem isOperator_kind (text : List Char) (left right : Bool) :
    (Operator.kind text left right).isOperator = true := by
  have hbound : (Operator.boundKind left right).isOperator = true := by
    cases left <;> cases right <;> rfl
  unfold Operator.kind
  split
  · rfl
  · rfl
  · split <;> rfl
  · rfl
  · split
    · rfl
    · exact hbound
  · split
    · rfl
    · exact hbound
  · exact hbound

-- ---------------------------------------------------------------------------
-- Characters that bind
-- ---------------------------------------------------------------------------

/-- The characters that do not bind an operator beside them, on one side or on both, and those that
comments are marked with. -/
def separators : List Char :=
  [' ', '\t', '\n', '\r', '\x0b', '\x0c', '(', '[', '{', ')', ']', '}', ',', ';', ':', '/', '*']

variable {c : Char} {p : Char → Bool}

/-- A class of characters that holds none of these holds others only. -/
theorem not_separator_of_class (hp : ∀ c ∈ separators, p c = false) (hc : p c = true) :
    c ∉ separators := by
  intro hmem
  rw [hp c hmem] at hc
  cases hc

theorem not_separator_of_isNumberChar (hc : Number.isNumberChar c = true) : c ∉ separators :=
  not_separator_of_class (List.forall_iff_forall_mem.mp (by decide)) hc

theorem not_separator_of_isWordChar (hc : isWordChar c = true) : c ∉ separators :=
  not_separator_of_class (List.forall_iff_forall_mem.mp (by decide)) hc

theorem not_separator_of_isGarbage (hc : isGarbage c = true) : c ∉ separators :=
  not_separator_of_class (List.forall_iff_forall_mem.mp (by decide)) hc

theorem isLeftBound_of_not_separator (hc : c ∉ separators) (before : List Char) :
    Operator.isLeftBound (c :: before) = true := by
  simp only [separators, List.mem_cons, List.not_mem_nil, or_false, not_or] at hc
  simp [Operator.isLeftBound, isWhitespace, hc]

theorem isRightBound_of_not_separator (hc : c ∉ separators) (rest : List Char) :
    Operator.isRightBound (c :: rest) = true := by
  simp only [separators, List.mem_cons, List.not_mem_nil, or_false, not_or] at hc
  simp [Operator.isRightBound, isWhitespace, hc]

/-- Of the characters of operators, only the slash may belong to a comment. -/
theorem bound_of_isOperatorChar (hc : c = '.' ∨ isOperatorChar c = true) (hslash : c ≠ '/')
    (text : List Char) :
    Operator.isLeftBound (c :: text) = true ∧ Operator.isRightBound (c :: text) = true := by
  have hchars : ∀ c ∈ '.' :: operatorChars, c = '/' ∨
      Operator.isLeftBound [c] = true ∧ Operator.isRightBound [c] = true :=
    List.forall_iff_forall_mem.mp (by decide)
  have hmem : c ∈ '.' :: operatorChars := by
    rcases hc with rfl | hc
    · exact List.mem_cons_self ..
    · exact List.mem_cons_of_mem _ (List.contains_iff_mem.mp hc)
  have hbound := (hchars c hmem).resolve_left hslash
  simp only [Operator.isLeftBound, Operator.isRightBound, beq_false_of_ne hslash] at hbound ⊢
  exact hbound

/-- Where no trivia starts, a slash starts no comment. -/
theorem not_comment_of_stop {trailing atStart : Bool} {text : List Char}
    (h : GapStart.ofText trailing atStart ('/' :: text) = .nothing) :
    text.head?.any ['/', '*'].contains = false := by
  by_contra hcomment
  rw [Bool.not_eq_false, Option.any_eq_true] at hcomment
  obtain ⟨d, hd, hmem⟩ := hcomment
  obtain ⟨rest, rfl⟩ := List.head?_eq_some_iff.mp hd
  simp only [List.contains_iff_mem, List.mem_cons, List.not_mem_nil, or_false] at hmem
  have hunit : RunUnit.ofText? ('/' :: d :: rest) = none := rfl
  unfold GapStart.ofText at h
  rw [hunit] at h
  rcases hmem with rfl | rfl
  · cases h
  · simp only at h
    split at h <;> cases h

namespace Lexer

variable {source : List Char} {k l m : Lexer} {q : Part} {c : Char} {text : List Char}

-- ---------------------------------------------------------------------------
-- What a part ends with
-- ---------------------------------------------------------------------------

/-- What the part before the cursor ends with, if it does not end the source. The part was cut off by
the lexer `k`. -/
inductive EndCase (k : Lexer) (q : Part) (l : Lexer) : Prop where
  /-- A character that belongs to no comment and is no asterisk, so that it says what the part does. -/
  | char {d : Char} {rest : List Char} (hbefore : l.before = d :: rest) (hslash : d ≠ '/')
      (hstar : d ≠ '*') (hbinds : Operator.isLeftBound (d :: rest) = q.bindsOnLeft)
  | blockComment {rest : List Char} (hbefore : l.before = '/' :: '*' :: rest)
      (hbinds : q.bindsOnLeft = false)
  /-- All that is left of a line was taken. -/
  | line (hends : ∀ c ∈ l.rest.head?, isLineBreak c = true)
  | operator {kind : Kind} {text : List Char} (hq : q = .lexeme kind text)
      (hkind : kind.isOperator = true) (hcode : k.context.isCode = true)
      (hstart : GapStart.ofText false k.before.isEmpty k.rest = .nothing)
      (hchars : ∀ c ∈ text, isOperatorChar c = true ∨ c = '.')
      (hstop : ∀ c rest, l.rest = c :: rest → isOperatorChar c = false ∨
        (c = '/' ∧ rest.head?.any ['/', '*'].contains = true) ∨
          (c = '>' ∧ l.angles.closers.contains l.index = true))

/-- The part ends with this character. -/
theorem Takes.exists_before {d : Char} (h : k.Takes q l) (hlast : q.text.getLast? = some d) :
    ∃ rest, l.before = d :: rest := by
  obtain ⟨first, hfirst⟩ := List.getLast?_eq_some_iff.mp hlast
  refine ⟨first.reverse ++ k.before, ?_⟩
  rw [h.before_eq, hfirst, List.reverse_append, List.append_assoc]
  rfl

/-- Where all characters bind, the part does. -/
theorem endCase_of_chars {chars : List Char} (h : k.Takes q l) (htext : q.text = chars)
    (hne : chars ≠ []) (hchars : ∀ c ∈ chars, c ∉ separators) (hbinds : q.bindsOnLeft = true) :
    EndCase k q l := by
  subst htext
  obtain ⟨rest, hbefore⟩ := h.exists_before (List.getLast?_eq_some_getLast hne)
  have hlast := hchars _ (List.getLast_mem hne)
  refine .char hbefore ?_ ?_ ((isLeftBound_of_not_separator hlast rest).trans hbinds.symm)
  · intro hslash
    rw [hslash] at hlast
    exact hlast (by decide)
  · intro hstar
    rw [hstar] at hlast
    exact hlast (by decide)

theorem endCase_of_run {unit : RunUnit} {n : Nat} (h : k.Takes (.piece (.run unit (n + 1))) l) :
    EndCase k (.piece (.run unit (n + 1))) l := by
  have hbefore := h.before_eq
  simp only [Part.text, text_run_succ, List.reverse_append, List.append_assoc] at hbefore
  -- no unit ends with a marker of comments
  cases unit
  all_goals exact .char hbefore (by decide) (by decide) rfl

theorem endCase_of_piece {p : Piece} (h : k.Takes (.piece p) l) : EndCase k (.piece p) l := by
  cases h with
  | piece hcode hpiece =>
    have htakes := Takes.piece hcode hpiece
    cases pieceCase_of_start hpiece with
    | @run unit hunit =>
      obtain ⟨n, hn⟩ := Nat.exists_eq_succ_of_ne_zero (Nat.ne_of_gt (RunUnit.count_pos hunit))
      rw [hn] at htakes ⊢
      exact endCase_of_run htakes
    | lineComment => exact .line (isLineBreak_behind_takeWhile _)
    | script => exact .line (isLineBreak_behind_takeWhile _)
    | @blockComment rest n htext hclosing =>
      obtain ⟨inner, hinner⟩ := Comment.exists_take_of_closing? hclosing
      have htaken : k.rest.take (n + 2) = ('/' :: '*' :: inner) ++ ['*', '/'] := by
        rw [htext, List.take_succ_cons, List.take_succ_cons, hinner]
        rfl
      have hreverse : (k.rest.take (n + 2)).reverse ++ k.before =
          '/' :: '*' :: (('/' :: '*' :: inner).reverse ++ k.before) := by
        rw [htaken, List.reverse_append, List.append_assoc]
        rfl
      exact .blockComment (htakes.before_eq.trans hreverse) rfl
    | garbage htext hc =>
      refine endCase_of_chars htakes rfl (GapStart.ofText_eq_piece hpiece).1 (fun d hd => ?_) rfl
      exact not_separator_of_isGarbage (List.mem_takeWhile_imp hd)

/-- A lexeme that starts with a character of its own and goes on with word characters. -/
theorem endCase_of_word {kind : Kind} {n : Nat} (h : k.Takes (.lexeme kind (k.rest.take (1 + n))) l)
    (hrest : k.rest = c :: text) (hc : c ∉ separators)
    (hchars : ∀ d ∈ text.take n, isWordChar d = true)
    (hbinds : (Part.lexeme kind (k.rest.take (1 + n))).bindsOnLeft = true) :
    EndCase k (.lexeme kind (k.rest.take (1 + n))) l := by
  have htext : k.rest.take (1 + n) = c :: text.take n := by
    rw [hrest, Nat.add_comm, List.take_succ_cons]
  refine endCase_of_chars h htext (List.cons_ne_nil _ _) (fun d hd => ?_) hbinds
  rcases List.mem_cons.mp hd with rfl | hd
  · exact hc
  · exact not_separator_of_isWordChar (hchars d hd)

/-- A lexeme of one character that is no marker of comments. -/
theorem endCase_of_single {kind : Kind} (h : k.Takes (.lexeme kind (k.rest.take 1)) l)
    (hrest : k.rest = c :: text) (hslash : c ≠ '/') (hstar : c ≠ '*')
    (hbinds : ∀ before, Operator.isLeftBound (c :: before) = (Part.lexeme kind []).bindsOnLeft) :
    EndCase k (.lexeme kind (k.rest.take 1)) l := by
  have hbefore := h.before_eq
  rw [hrest] at hbefore
  refine .char hbefore hslash hstar ((hbinds _).trans ?_)
  cases kind <;> rfl

theorem endCase_of_operator {length : Nat} {left right : Bool} (hcode : k.context.isCode = true)
    (hstart : GapStart.ofText false k.before.isEmpty k.rest = .nothing) (hrest : k.rest = c :: text)
    (hlength : length = 1 + Operator.extension (c == '.') k.angles.closers (k.index + 1) text)
    (hc : c = '.' ∨ isOperatorChar c = true) :
    EndCase k (.lexeme (Operator.kind (k.rest.take length) left right) (k.rest.take length))
      (k.accept (k.plain (Operator.kind (k.rest.take length) left right) length)) := by
  have hle := Operator.extension_le (c == '.') k.angles.closers (k.index + 1) text
  refine .operator rfl (isOperator_kind ..) hcode hstart (fun d hd => ?_) fun d rest hd => ?_
  · rw [hrest, hlength, Nat.add_comm, List.take_succ_cons] at hd
    rcases List.mem_cons.mp hd with rfl | hd
    · exact hc.symm
    · exact Operator.mem_take_extension _ _ _ _ d hd
  · -- the operator has stopped where the lexer stands
    have hindex : (k.accept (k.plain (Operator.kind (k.rest.take length) left right) length)).index =
        k.index + 1 + Operator.extension (c == '.') k.angles.closers (k.index + 1) text := by
      show k.index + (k.rest.take length).length = _
      rw [List.length_take, hrest, List.length_cons]
      omega
    rw [hindex]
    refine Operator.extension_stop (c == '.') k.angles.closers (k.index + 1) text d rest ?_
    replace hd : k.rest.drop length = d :: rest := hd
    rwa [hrest, hlength, Nat.add_comm, List.drop_succ_cons] at hd

/-- What a part ends with behind which a part of code follows. -/
theorem endCase_of_takes (h : k.Takes q l) (hk : k.InOrder source) (hcode : l.context.isCode = true)
    (hrest : l.rest ≠ []) : EndCase k q l := by
  cases h with
  | piece hcode' hpiece => exact endCase_of_piece (.piece hcode' hpiece)
  | @lexeme x hstop hx =>
    have htakes : k.Takes (.lexeme x.kind (k.rest.take x.length)) (k.accept x) := .lexeme hstop hx
    have hliteral : ∀ c outer, x.contexts = c :: outer → c.isCode = true := by
      intro c outer hcontexts
      have hinner : (Context.innermost x.contexts).isCode = true := hcode
      rwa [hcontexts] at hinner
    cases finds_of_lexeme hx with
    | backslash | openingQuote =>
      have := hliteral _ _ rfl
      cases this
    | segment hcontext =>
      have hinner : k.context.isCode = true := hcode
      rw [hcontext] at hinner
      cases hinner
    | eof _ hnil => exact absurd (by show k.rest.drop 0 = []; rw [hnil]; rfl) hrest
    | @closingQuote multiline _ _ hquote =>
      have htake := (List.prefix_iff_eq_take.mp (List.isPrefixOf_iff_prefix.mp hquote)).symm
      rw [List.length_replicate] at htake
      refine endCase_of_chars htakes htake ?_ (fun d hd => ?_) (by cases multiline <;> rfl)
      · cases multiline <;> decide
      · rw [List.eq_of_mem_replicate hd]
        decide
    | interpolationParen hcontext =>
      obtain ⟨text, hparen⟩ := List.head?_eq_some_iff.mp (hk.paren _ hcontext)
      exact endCase_of_single htakes hparen (by decide) (by decide) fun _ => rfl
    | leftParen _ hfirst | interpolationEnd _ hfirst | rightParen _ _ hfirst | pound _ hfirst
    | postfixQuestion _ hfirst =>
      exact endCase_of_single htakes hfirst (by decide) (by decide) fun _ => rfl
    | mark _ hfirst hkind =>
      unfold markKind? at hkind
      split at hkind
      all_goals cases hkind
      all_goals exact endCase_of_single htakes hfirst (by decide) (by decide) fun _ => rfl
    | angleBracket _ hfirst hangle =>
      rcases cases_of_angleBracket? hangle with ⟨rfl, rfl⟩ | ⟨rfl, rfl⟩
      all_goals exact endCase_of_single htakes hfirst (by decide) (by decide) fun _ => rfl
    | @rawString text body _ hfirst hbody hclosed =>
      have hlast := RawString.getLast?_take_extent hbody hclosed
      rw [← hfirst] at hlast
      obtain ⟨rest, hbefore⟩ := htakes.exists_before hlast
      exact .char hbefore (by decide) (by decide) rfl
    | poundKeyword _ hfirst =>
      exact endCase_of_word htakes hfirst (by decide) (Word.isWordChar_of_mem_leading _) rfl
    | dollar _ hfirst =>
      exact endCase_of_word htakes hfirst (by decide) (fun d => of_mem_take_takeWhile) rfl
    | word _ hfirst hstart =>
      have hc := not_separator_of_isWordChar (isWordChar_of_isWordStart hstart)
      exact endCase_of_word htakes hfirst hc (fun d => of_mem_take_takeWhile)
        (bindsOnLeft_of_isRun (isRun_word ..) _)
    | @number c text _ hfirst hdigit =>
      have htext : k.rest.take (Number.ofText (c :: text)).2 =
          (c :: text).take (Number.ofText (c :: text)).2 := by
        rw [hfirst]
      have hpos := Number.ofText_length_pos hdigit text
      refine endCase_of_chars htakes htext ?_ (fun d hd => ?_)
        (bindsOnLeft_of_isRun (isRun_number _) _)
      · rw [Ne, List.take_eq_nil_iff, not_or]
        exact ⟨Nat.ne_of_gt hpos, List.cons_ne_nil _ _⟩
      · exact not_separator_of_isNumberChar (Number.isNumberChar_of_mem _ d hd)
    | operator hcode' hfirst hlength hc =>
      exact endCase_of_operator hcode' (hstop hcode') hfirst hlength hc
    | unknown hcode' hfirst hc =>
      have hstart := hstop hcode'
      rw [hfirst] at hstart
      rw [startsToken_of_stop hstart] at hc
      cases hc

-- ---------------------------------------------------------------------------
-- What a part starts with
-- ---------------------------------------------------------------------------

/-- In code, the characters at the cursor bind an operator before them if the part that they start
does. -/
theorem isRightBound_of_takes (h : l.Takes q m) (hcode : l.context.isCode = true) :
    Operator.isRightBound l.rest = q.bindsOnRight := by
  cases h with
  | piece _ hpiece =>
    cases pieceCase_of_start hpiece with
    | @run unit hunit =>
      obtain ⟨rest, hrest⟩ := RunUnit.text_isPrefix_of_ofText? hunit
      rw [← hrest]
      cases unit <;> rfl
    | lineComment htext | blockComment htext | script _ htext =>
      rw [htext]
      rfl
    | garbage htext hc =>
      rw [htext]
      exact isRightBound_of_not_separator (not_separator_of_isGarbage hc) _
  | @lexeme x hstop hx =>
    have hstart := hstop hcode
    cases finds_of_lexeme hx with
    | closingQuote hcontext | backslash hcontext | segment hcontext | interpolationParen hcontext =>
      rw [hcontext] at hcode
      cases hcode
    | eof _ hfirst | leftParen _ hfirst | interpolationEnd _ hfirst | rightParen _ _ hfirst
    | rawString _ hfirst | poundKeyword _ hfirst | pound _ hfirst | dollar _ hfirst
    | postfixQuestion _ hfirst =>
      rw [hfirst]
      rfl
    | @openingQuote text _ hfirst =>
      rw [hfirst]
      unfold openingQuote
      cases StringText.opensMultiline text <;> rfl
    | mark _ hfirst hkind =>
      rw [hfirst]
      unfold markKind? at hkind
      split at hkind
      all_goals cases hkind
      all_goals rfl
    | angleBracket _ hfirst hangle =>
      rw [hfirst]
      rcases cases_of_angleBracket? hangle with ⟨rfl, rfl⟩ | ⟨rfl, rfl⟩
      all_goals rfl
    | @number c _ _ hfirst hdigit =>
      have hc := not_separator_of_isWordChar (@Base.isWordChar_of_hasDigit .decimal c hdigit)
      rw [hfirst, isRightBound_of_not_separator hc]
      exact (bindsOnRight_of_isRun (isRun_number _) _).symm
    | word _ hfirst hword =>
      have hc := not_separator_of_isWordChar (isWordChar_of_isWordStart hword)
      rw [hfirst, isRightBound_of_not_separator hc]
      exact (bindsOnRight_of_isRun (isRun_word ..) _).symm
    | @operator c text _ _ hfirst _ hc =>
      refine Eq.trans ?_ (bindsOnRight_of_isRun (isRun_operator ..) _).symm
      rw [hfirst] at hstart ⊢
      by_cases hslash : c = '/'
      · subst hslash
        show (!text.head?.any ['/', '*'].contains) = true
        rw [not_comment_of_stop hstart]
        rfl
      · exact (bound_of_isOperatorChar hc hslash text).2
    | unknown _ hfirst hc =>
      rw [hfirst] at hstart
      rw [startsToken_of_stop hstart] at hc
      cases hc

end Lexer

end SwiftColoring
