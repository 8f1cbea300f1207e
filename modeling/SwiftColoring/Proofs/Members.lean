import SwiftColoring.Proofs.Classes
import SwiftColoring.Proofs.Numerals
import SwiftColoring.Proofs.Words

/-!
# Members of integers

A name behind an integer and a dot is a member of the integer, and the dot is a token of its own. In base
sixteen a name may start with what is a digit there. Then the dot belongs to the number, and what the name
starts with is its fraction.

* `Number.ofText_append_dot` — the number that an integer with a dot and a name starts with.
* `Lexer.exists_next_of_plain` — a call that hands out a token with no trivia beside it.
* `members_split_from_integers` — the whole statement.
-/

namespace SwiftColoring

/-- A character that starts a word, and characters that continue one. -/
def Word.IsName : List Char → Prop
  | [] => False
  | c :: rest => isWordStart c = true ∧ ∀ d ∈ rest, isWordChar d = true

/-- The name starts with what is a digit in base sixteen. -/
def Word.startsWithHexDigit (name : List Char) : Bool := name.head?.any Base.hex.hasDigit

theorem Word.not_digit_of_isName {name : List Char} (h : IsName name) :
    name.head?.any Base.decimal.hasDigit = false := by
  cases name with
  | nil => cases h
  | cons c rest =>
    refine Bool.eq_false_iff.mpr fun hdigit => ?_
    have hword := h.1
    rw [isWordStart_of_isDigit hdigit] at hword
    cases hword

namespace Number

variable {base : Base} {n name body : List Char}

-- ---------------------------------------------------------------------------
-- A dot behind an integer
-- ---------------------------------------------------------------------------

theorem isWordChar_of_mem_digits (h : body ∈ digits base) : ∀ c ∈ body, isWordChar c = true := by
  intro c hc
  have hdigit := mem_digits.mp h c hc
  rw [Bool.or_eq_true, beq_iff_eq] at hdigit
  rcases hdigit with rfl | hdigit
  · decide
  · exact Base.isWordChar_of_hasDigit hdigit

theorem isWordChar_of_mem_integers (h : n ∈ integers base) : ∀ c ∈ n, isWordChar c = true := by
  by_cases hbase : base = .decimal
  · subst hbase
    exact isWordChar_of_mem_digits (mem_digits_of_mem_digitRuns h)
  · obtain ⟨body, rfl, hbody⟩ := mem_integers_of_marker hbase h
    intro c hc
    rcases List.mem_append.mp hc with hc | hc
    · have hmarker : ∀ c ∈ marker base, isWordChar c = true := by
        cases base <;> exact List.forall_iff_forall_mem.mp (by decide)
      exact hmarker c hc
    · exact isWordChar_of_mem_digits hbody c hc

theorem exists_digit_of_mem_integers (h : n ∈ integers base) :
    ∃ d more, n = d :: more ∧ d.isDigit = true := by
  by_cases hbase : base = .decimal
  · subst hbase
    obtain ⟨d, more, hn, hd, -⟩ := mem_digitRuns.mp h
    exact ⟨d, more, hn, hd⟩
  · obtain ⟨body, rfl, -⟩ := mem_integers_of_marker hbase h
    cases base with
    | decimal => exact absurd rfl hbase
    | hex | octal | binary => exact ⟨'0', _, rfl, by decide⟩

theorem digitsLength_append_dot (h : body ∈ digits base) (name : List Char) :
    digitsLength base (body ++ '.' :: name) = body.length := by
  rw [digitsLength_append h, digitsLength_cons_of_not (by cases base <;> decide), Nat.add_zero]

/-- Without a digit behind it, a dot is not passed. -/
theorem measure_append_dot (h : body ∈ digits base) (hname : name.head?.any base.hasDigit = false)
    (m : Nat) : measure base m (body ++ '.' :: name) = (.integer base, m + body.length) := by
  have hfraction : fractionLength base ('.' :: name) = 0 := by
    cases name with
    | nil => rfl
    | cons d rest =>
      exact if_neg (Bool.eq_false_iff.mp hname)
  have hexponent : exponentLength base ('.' :: name) = 0 := by
    cases base <;> rfl
  simp only [measure, digitsLength_append_dot h, List.drop_left, hfraction, Nat.add_zero, hexponent,
    beq_self_eq_true, Bool.and_self, if_true]

/-- With a digit behind it, a dot is passed. -/
theorem kind_measure_append_dot (h : body ∈ digits base) (hname : name.head?.any base.hasDigit = true)
    (m : Nat) : (measure base m (body ++ '.' :: name)).1 = .float := by
  cases name with
  | nil => cases hname
  | cons d rest =>
    have hfraction : fractionLength base ('.' :: d :: rest) = 1 + digitsLength base (d :: rest) :=
      if_pos hname
    simp only [measure, digitsLength_append_dot h, List.drop_left, hfraction]
    refine if_neg ?_
    rw [Bool.and_eq_true, beq_iff_eq]
    omega

theorem no_marker_of_mem_digitRuns (h : n ∈ digitRuns .decimal) {letter : Char}
    (hletter : letter ∈ ['x', 'o', 'b']) (rest : List Char) : n ++ '.' :: name ≠ '0' :: letter :: rest := by
  obtain ⟨d, more, rfl, -, hmore⟩ := mem_digitRuns.mp h
  intro heq
  cases more with
  | nil =>
    have hdot := (List.cons.inj (List.cons.inj heq).2).1
    rw [← hdot] at hletter
    exact absurd hletter (by decide)
  | cons e more =>
    have hdigit := mem_digits.mp hmore e (List.mem_cons_self ..)
    rw [(List.cons.inj (List.cons.inj heq).2).1] at hdigit
    have hnone : ∀ c ∈ ['x', 'o', 'b'], (c == '_' || Base.decimal.hasDigit c) = false :=
      List.forall_iff_forall_mem.mp (by decide)
    rw [hnone letter hletter] at hdigit
    cases hdigit

/-- The number that an integer with a dot and a name starts with is the integer, unless the base is sixteen
and the name starts with a digit. -/
theorem ofText_append_dot (hn : n ∈ integers base) (hname : Word.IsName name)
    (hdigit : ¬ (base = .hex ∧ Word.startsWithHexDigit name = true)) :
    ofText (n ++ '.' :: name) = (.integer base, n.length) := by
  cases base with
  | decimal =>
    rw [ofText_eq_measure fun _ hletter rest => no_marker_of_mem_digitRuns hn hletter rest,
      measure_append_dot (mem_digits_of_mem_digitRuns hn) (Word.not_digit_of_isName hname), Nat.zero_add]
  | hex =>
    obtain ⟨body, rfl, hbody⟩ := mem_integers_of_marker (by decide) hn
    have hmeasure := measure_append_dot hbody (Bool.eq_false_iff.mpr fun h => hdigit ⟨rfl, h⟩) 2
    rw [List.length_append]
    exact hmeasure
  | octal | binary =>
    obtain ⟨body, rfl, hbody⟩ := mem_integers_of_marker (by decide) hn
    have hdigits := digitsLength_append_dot hbody name
    rw [List.length_append, ← hdigits]
    rfl

theorem kind_ofText_append_dot (hn : n ∈ integers .hex) (hdigit : Word.startsWithHexDigit name = true) :
    (ofText (n ++ '.' :: name)).1 = .float := by
  obtain ⟨body, rfl, hbody⟩ := mem_integers_of_marker (by decide) hn
  exact kind_measure_append_dot hbody hdigit 2

end Number

-- ---------------------------------------------------------------------------
-- Calls without trivia
-- ---------------------------------------------------------------------------

/-- No trivia starts here, before a token or behind it. -/
def StartsNoTrivia (rest : List Char) : Prop :=
  ∀ trailing atStart, GapStart.ofText trailing atStart rest = .nothing

theorem StartsNoTrivia.of_startsToken {c : Char} (hc : startsToken c = true) (hslash : c ≠ '/')
    (hsharp : c ≠ '#') (text : List Char) : StartsNoTrivia (c :: text) :=
  fun trailing atStart => GapStart.ofText_of_startsToken hc hslash hsharp trailing atStart text

theorem StartsNoTrivia.of_isName {name : List Char} (h : Word.IsName name) : StartsNoTrivia name := by
  cases name with
  | nil => cases h
  | cons c rest =>
    refine .of_startsToken (startsToken_of_isWordStart h.1) ?_ ?_ rest
    all_goals
      rintro rfl
      exact absurd h.1 (by decide)

theorem StartsNoTrivia.of_isDigit {c : Char} (h : c.isDigit = true) (text : List Char) :
    StartsNoTrivia (c :: text) := by
  refine .of_startsToken (startsToken_of_isDigit h) ?_ ?_ text
  all_goals
    rintro rfl
    exact absurd h (by decide)

theorem StartsNoTrivia.of_dot (text : List Char) : StartsNoTrivia ('.' :: text) :=
  .of_startsToken (by decide) (by decide) (by decide) text

namespace Lexer

/-- In code outside of literals, between these characters. -/
structure Stands (l : Lexer) (before rest : List Char) : Prop where
  contexts : l.contexts = [.code]
  before : l.before = before
  rest : l.rest = rest

theorem Stands.context {l : Lexer} {before rest : List Char} (h : l.Stands before rest) :
    l.context = .code := by
  rw [Lexer.context, h.contexts]
  rfl

/-- A call hands out a lexeme with no trivia beside it. -/
theorem exists_next_of_plain {l : Lexer} {kind : Kind} {before text rest : List Char}
    (h : l.Stands before (text ++ rest)) (hx : l.lexeme = .ok (l.plain kind text.length))
    (hstart : StartsNoTrivia (text ++ rest)) (hstop : StartsNoTrivia rest) :
    ∃ t m, l.next = (.ok t, m) ∧ t.kind = kind ∧ t.text = text ∧
      m.Stands (text.reverse ++ before) rest := by
  have htake : l.rest.take text.length = text := by
    rw [h.rest, List.take_left]
  have hdrop : l.rest.drop text.length = rest := by
    rw [h.rest, List.drop_left]
  have hbehind : (l.accept (l.plain kind text.length)).Stands (text.reverse ++ before) rest := by
    refine ⟨h.contexts, ?_, hdrop⟩
    show (l.rest.take text.length).reverse ++ l.before = _
    rw [htake, h.before]
  have hnext := next_of_bare (x := l.plain kind text.length) (by rw [h.context]; rfl)
    (by rw [h.rest]; exact hstart ..) hx (by rw [hbehind.rest]; exact hstop ..)
  exact ⟨_, _, hnext, rfl, htake, hbehind⟩

-- ---------------------------------------------------------------------------
-- An integer, a dot and a name
-- ---------------------------------------------------------------------------

variable {l : Lexer} {base : Base} {before n name : List Char} {c : Char}

theorem exists_next_of_integer (h : l.Stands before (n ++ '.' :: name)) (hn : n ∈ Number.integers base)
    (hname : Word.IsName name) (hdigit : ¬ (base = .hex ∧ Word.startsWithHexDigit name = true)) :
    ∃ t m, l.next = (.ok t, m) ∧ t.kind = .integer base ∧ t.text = n ∧
      m.Stands (n.reverse ++ before) ('.' :: name) := by
  obtain ⟨d, more, hmore, hd⟩ := Number.exists_digit_of_mem_integers hn
  have hsource : n ++ '.' :: name = d :: (more ++ '.' :: name) := by
    rw [hmore, List.cons_append]
  refine exists_next_of_plain h ?_ ?_ (.of_dot name)
  · rw [lexeme_of_isDigit (by rw [h.context]; rfl) (h.rest.trans hsource) hd, ← hsource,
      Number.ofText_append_dot hn hname hdigit]
  · rw [hsource]
    exact .of_isDigit hd _

/-- A dot with a name behind it is a token of its own if it is bound on its left. -/
theorem exists_next_of_dot (h : l.Stands (c :: before) ('.' :: name)) (hc : c ∉ separators)
    (hname : Word.IsName name) :
    ∃ t m, l.next = (.ok t, m) ∧ t.kind = .period ∧ t.text = ['.'] ∧
      m.Stands ('.' :: c :: before) name := by
  have hextension : Operator.extension true l.angles.closers (l.index + 1) name = 0 := by
    cases name with
    | nil => cases hname
    | cons d rest =>
      have hoperator := not_operator_of_isWordChar (isWordChar_of_isWordStart hname.1)
      rw [Operator.extension, Bool.true_and, Bool.or_comm, hoperator]
      rfl
  have hleft : Operator.isLeftBound l.before = true := by
    rw [h.before]
    exact isLeftBound_of_not_separator hc before
  have hlexeme : l.lexeme = .ok (l.plain .period ['.'].length) := by
    rw [lexeme_of_isCode (by rw [h.context]; rfl)]
    unfold codeLexeme
    rw [h.rest]
    show Except.ok (l.operatorLexeme '.' name) = _
    have hangle : l.angleBracket? '.' name = none := rfl
    unfold operatorLexeme
    simp only [hangle, hleft, h.rest, beq_self_eq_true, hextension]
    rfl
  exact exists_next_of_plain h hlexeme (.of_dot name) (.of_isName hname)

/-- A name that is no keyword is an identifier behind a dot. -/
theorem exists_next_of_name (h : l.Stands ('.' :: before) name) (hname : Word.IsName name)
    (hkeyword : Keyword.ofSpelling? name = none) :
    ∃ t m, l.next = (.ok t, m) ∧ t.kind = .identifier ∧ t.text = name ∧
      m.Stands (name.reverse ++ '.' :: before) [] := by
  have hstarts : StartsNoTrivia name := .of_isName hname
  have hlexeme : l.lexeme = .ok (l.plain .identifier name.length) := by
    cases name with
    | nil => cases hname
    | cons d rest =>
      have hdigit : d.isDigit = false := Word.not_digit_of_isName hname
      obtain ⟨hstart, hrest⟩ := hname
      have hall : rest.takeWhile isWordChar = rest := List.takeWhile_eq_self_iff.mpr hrest
      have hnone : rest.dropWhile isWordChar = [] := List.dropWhile_eq_nil_iff.mpr hrest
      have hkind : Word.kind (some '.') (d :: rest) [] = .identifier := by
        unfold Word.kind
        rw [hkeyword]
        rfl
      rw [lexeme_of_isCode (by rw [h.context]; rfl),
        codeLexeme_of_isWordChar h.rest (isWordChar_of_isWordStart hstart),
        if_neg (Bool.eq_false_iff.mp hdigit), if_pos hstart, wordLexeme, hall, hnone, h.before,
        List.head?_cons, hkind, List.length_cons, Nat.add_comm]
  rw [← List.append_nil name] at h hstarts
  exact exists_next_of_plain h hlexeme hstarts fun _ _ => rfl

/-- An integer, a dot and a name are three tokens. -/
theorem tokens_of_member (hn : n ∈ Number.integers base) (hname : Word.IsName name)
    (hkeyword : Keyword.ofSpelling? name = none)
    (hdigit : ¬ (base = .hex ∧ Word.startsWithHexDigit name = true)) :
    ∃ ts, tokens (n ++ '.' :: name) = .ok ts ∧ ts.map (fun t => (t.kind, t.text)) =
      [(.integer base, n), (.period, ['.']), (.identifier, name), (.eof, [])] := by
  have hstands : (ofText (n ++ '.' :: name)).Stands [] (n ++ '.' :: name) := ⟨rfl, rfl, rfl⟩
  obtain ⟨t, l, hnext, hkind, htext, hl⟩ := exists_next_of_integer hstands hn hname hdigit
  -- the last character of the integer binds the dot
  obtain ⟨last, before, hlast⟩ : ∃ last before, n.reverse = last :: before := by
    obtain ⟨d, more, rfl, -⟩ := Number.exists_digit_of_mem_integers hn
    exact List.exists_cons_of_ne_nil (by simp)
  have hbinds : last ∉ separators := by
    refine not_separator_of_isWordChar (Number.isWordChar_of_mem_integers hn last ?_)
    rw [← List.mem_reverse, hlast]
    exact List.mem_cons_self ..
  rw [hlast] at hl
  obtain ⟨t', l', hnext', hkind', htext', hl'⟩ := exists_next_of_dot hl hbinds hname
  obtain ⟨t'', l'', hnext'', hkind'', htext'', hl''⟩ := exists_next_of_name hl' hname hkeyword
  have hreads : (ofText (n ++ '.' :: name)).Reads ([] ++ [t] ++ [t'] ++ [t'']) l'' :=
    ((Reads.nil.snoc hnext (by simp [hkind])).snoc hnext' (by simp [hkind'])).snoc hnext''
      (by simp [hkind''])
  refine ⟨_, tokens_of_reads hreads (next_of_ended hl''.context hl''.rest) rfl, ?_⟩
  simp only [List.nil_append, List.cons_append, List.map_cons, List.map_nil, hkind, htext, hkind',
    htext', hkind'', htext'']

/-- The first token of a source that starts with a digit is a number. -/
theorem kind_of_digit_first {text : List Char} {t : Token} {ts : List Token} (hc : c.isDigit = true)
    (hts : tokens (c :: text) = .ok (t :: ts)) : t.kind = (Number.ofText (c :: text)).1 := by
  have hfirst : tokens (c :: text) = .ok ([] ++ t :: ts) := hts
  obtain ⟨l, behind, hreads, hnext⟩ := exists_next_of_tokens hfirst
  obtain rfl := hreads.eq_of_nil
  obtain ⟨leading, here, x, trailing, hleading, hx, -, rfl⟩ := next_ok_iff.mp hnext
  have hnothing : (ofText (c :: text)).takeLeading = (.ok [], ofText (c :: text)) :=
    takeGap_of_nothing (StartsNoTrivia.of_isDigit hc text ..)
  obtain ⟨-, rfl⟩ := Prod.mk.inj (hleading.symm.trans hnothing)
  rw [lexeme_of_isDigit rfl rfl hc] at hx
  obtain rfl := Except.ok.inj hx
  rfl

end Lexer

/-- **Members split from integers.** An integer of any base, a dot and a name that is no keyword are read as
these three tokens, unless the base is sixteen and the name starts with a digit of it. Then they are not,
because the dot and the digits are a fraction. -/
theorem members_split_from_integers {base : Base} {n name : List Char} (hn : n ∈ Number.integers base)
    (hname : Word.IsName name) (hkeyword : Keyword.ofSpelling? name = none) :
    (∃ ts, tokens (n ++ '.' :: name) = .ok ts ∧ ts.map (fun t => (t.kind, t.text)) =
      [(.integer base, n), (.period, ['.']), (.identifier, name), (.eof, [])]) ↔
    ¬ (base = .hex ∧ Word.startsWithHexDigit name = true) := by
  refine ⟨?_, Lexer.tokens_of_member hn hname hkeyword⟩
  rintro ⟨ts, hts, hmap⟩ ⟨rfl, hdigit⟩
  obtain ⟨t, more, rfl, hfirst, -⟩ := List.map_eq_cons_iff.mp hmap
  have hkind : t.kind = .integer .hex := (Prod.mk.inj hfirst).1
  obtain ⟨d, digits, rfl, hd⟩ := Number.exists_digit_of_mem_integers hn
  have hfloat := (Lexer.kind_of_digit_first hd hts).trans (Number.kind_ofText_append_dot hn hdigit)
  rw [hkind] at hfloat
  cases hfloat

/-- The name starts with a letter of an exponent, but no exponent stands behind the dot. -/
theorem members_split_from_integers_power :
    "0x1_F".toList ∈ Number.integers .hex ∧ Word.IsName "p3".toList ∧
    Keyword.ofSpelling? "p3".toList = none ∧
    ∃ ts, tokens "0x1_F.p3".toList = .ok ts ∧ ts.map (fun t => (t.kind, t.text)) =
      [(.integer .hex, "0x1_F".toList), (.period, ['.']), (.identifier, "p3".toList), (.eof, [])] := by
  have hn : "0x1_F".toList ∈ Number.integers .hex :=
    ⟨['0', 'x'], rfl, "1_F".toList, Number.mem_digits.mpr (List.forall_iff_forall_mem.mp (by decide)), rfl⟩
  have hname : Word.IsName "p3".toList := ⟨by decide, List.forall_iff_forall_mem.mp (by decide)⟩
  have hkeyword : Keyword.ofSpelling? "p3".toList = none := by decide
  exact ⟨hn, hname, hkeyword, (members_split_from_integers hn hname hkeyword).mpr (by decide)⟩

/-- An integer in base sixteen with a name behind the dot that happens to be made of digits: the three are
one number. -/
theorem hex_member_is_read_as_fraction :
    "0x1".toList ∈ Number.integers .hex ∧ Word.IsName "face".toList ∧
    Keyword.ofSpelling? "face".toList = none ∧
    (tokens ("0x1".toList ++ '.' :: "face".toList)).toOption.map (List.map fun t => (t.kind, t.text)) =
      some [(.float, "0x1.face".toList), (.eof, [])] ∧
    ¬ ∃ ts, tokens ("0x1".toList ++ '.' :: "face".toList) = .ok ts ∧
      ts.map (fun t => (t.kind, t.text)) =
        [(.integer .hex, "0x1".toList), (.period, ['.']), (.identifier, "face".toList), (.eof, [])] := by
  have hn : "0x1".toList ∈ Number.integers .hex :=
    ⟨['0', 'x'], rfl, ['1'], Number.mem_digits.mpr (List.forall_iff_forall_mem.mp (by decide)), rfl⟩
  have hname : Word.IsName "face".toList := ⟨by decide, List.forall_iff_forall_mem.mp (by decide)⟩
  have hparts : (tokens ("0x1".toList ++ '.' :: "face".toList)).toOption.map
      (List.map fun t => (t.kind, t.text)) = some [(.float, "0x1.face".toList), (.eof, [])] := by
    decide +kernel
  refine ⟨hn, hname, by decide, hparts, ?_⟩
  rintro ⟨ts, hts, hmap⟩
  rw [hts] at hparts
  have hsame := hmap.symm.trans (Option.some.inj hparts)
  cases hsame

end SwiftColoring
