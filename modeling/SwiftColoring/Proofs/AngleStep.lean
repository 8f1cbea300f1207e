import SwiftColoring.Proofs.AngleRange
import SwiftColoring.Proofs.Reachable

/-!
# Tokens among generic arguments

An opening angle bracket is recognized by a search ahead, and the brackets that the search has passed
are marked for later. Where the text behind the opening bracket nests, later tokens agree with the
search: each mark is met by a token of its own, and no other token takes a bracket of the arguments.

* `AngleStep` — what a token does to the open brackets.
* `Lexer.AmongGenerics` — a lexer, and the brackets of generic arguments that are open before it.
* `Lexer.AmongGenerics.lexeme_outside`, `Lexer.AmongGenerics.lexeme_inside` — one lexeme does a step.
* `Lexer.AmongGenerics.next` — so does one call.
-/

namespace SwiftColoring

open GenericArguments

-- ---------------------------------------------------------------------------
-- What a token does to the open brackets
-- ---------------------------------------------------------------------------

/-- Tokens of this kind are delimiters or angle brackets. -/
def Kind.isBracket : Kind → Bool
  | .leftParen | .leftBrace | .leftBracket | .rightParen | .rightBrace | .rightBracket
  | .interpolationEnd | .leftAngle | .rightAngle => true
  | _ => false

/-- What a token of a kind does to the open brackets of generic arguments, innermost first. -/
inductive AngleStep : Kind → List Char → List Char → Prop where
  /-- Outside of generic arguments, tokens other than angle brackets do nothing. -/
  | outside {kind : Kind} (hleft : kind ≠ .leftAngle) (hright : kind ≠ .rightAngle) :
      AngleStep kind [] []
  | leftAngle {ks : List Char} : AngleStep .leftAngle ks ('<' :: ks)
  | rightAngle {ks : List Char} : AngleStep .rightAngle ('<' :: ks) ks
  | opening {kind : Kind} {c : Char} {ks : List Char} (hopens : kind.opensGroup = true) (hc : c ≠ '<') :
      AngleStep kind ks (c :: ks)
  | closing {kind : Kind} {c : Char} {ks : List Char} (hcloses : kind.closesGroup = true) (hc : c ≠ '<') :
      AngleStep kind (c :: ks) ks
  | inert {kind : Kind} {ks : List Char} (hkind : kind.isBracket = false) : AngleStep kind ks ks

theorem Kind.isBracket_of_isRun {kind : Kind} (h : kind.isRun = true) : kind.isBracket = false := by
  cases kind <;> first | rfl | cases h

theorem Kind.isBracket_of_opensGroup {kind : Kind} (h : kind.opensGroup = true) :
    kind.isBracket = true := by
  cases kind <;> first | rfl | cases h

theorem Kind.isBracket_of_closesGroup {kind : Kind} (h : kind.closesGroup = true) :
    kind.isBracket = true := by
  cases kind <;> first | rfl | cases h

theorem Kind.ne_angle_of_isBracket {kind : Kind} (h : kind.isBracket = false) :
    kind ≠ .leftAngle ∧ kind ≠ .rightAngle := by
  constructor
  all_goals
    rintro rfl
    cases h

theorem ne_angle_markKind? {c : Char} {kind : Kind} (h : Lexer.markKind? c = some kind) :
    kind ≠ .leftAngle ∧ kind ≠ .rightAngle := by
  unfold Lexer.markKind? at h
  split at h <;> simp only [Option.some.injEq, reduceCtorEq] at h <;> subst h <;> decide

/-- Behind an opening parenthesis, an interpolation has one more open than before it. -/
theorem Context.of_innermost_enterParen {contexts : List Context} {depth : Nat} {opening : Pos}
    (h : innermost (enterParen contexts) = .interpolation depth opening) :
    ∃ d, depth = d + 1 ∧ innermost contexts = .interpolation d opening := by
  unfold enterParen at h
  split at h
  · obtain ⟨rfl, rfl⟩ := Context.interpolation.inj h
    exact ⟨_, rfl, rfl⟩
  · rename_i hnot
    obtain ⟨outer, rfl⟩ := eq_cons_of_innermost h (by simp)
    exact absurd rfl (hnot depth opening outer)

/-- Behind a closing parenthesis that does not end it, an interpolation has one less open. -/
theorem Context.of_innermost_leaveParen {contexts : List Context} {depth : Nat} {opening : Pos}
    (hends : (innermost contexts).endsInterpolation = false)
    (h : innermost (leaveParen contexts) = .interpolation depth opening) :
    innermost contexts = .interpolation (depth + 1) opening := by
  unfold leaveParen at h
  split at h
  · obtain ⟨rfl, rfl⟩ := Context.interpolation.inj h
    rfl
  · rename_i hnot
    obtain ⟨outer, rfl⟩ := eq_cons_of_innermost h (by simp)
    cases depth with
    | zero => cases hends
    | succ depth => exact absurd rfl (hnot depth opening outer)

namespace Lexer

variable {l : Lexer} {x : Lexeme} {ks : List Char} {c : Char} {text : List Char}

-- ---------------------------------------------------------------------------
-- Angle brackets and marks
-- ---------------------------------------------------------------------------

/-- The lexeme is no angle bracket, and leaves the marks alone. -/
structure KeepsAngles (l : Lexer) (x : Lexeme) : Prop where
  angles_eq : x.angles = l.angles
  ne_leftAngle : x.kind ≠ .leftAngle
  ne_rightAngle : x.kind ≠ .rightAngle

private theorem keepsAngles_of_isRun {kind : Kind} (n : Nat) (h : kind.isRun = true) :
    l.KeepsAngles (l.plain kind n) :=
  have hne := Kind.ne_angle_of_isBracket (Kind.isBracket_of_isRun h)
  ⟨rfl, hne.1, hne.2⟩

private theorem keepsAngles_quote (multiline : Bool) (n : Nat) (contexts : List Context) :
    l.KeepsAngles { l.plain (quoteKind multiline) n with contexts := contexts } := by
  cases multiline <;> exact ⟨rfl, nofun, nofun⟩

/-- Only an angle bracket changes the marks. -/
theorem angles_cases (hx : l.lexeme = .ok x) :
    l.KeepsAngles x ∨ ∃ c text, l.context.isCode = true ∧ l.rest = c :: text ∧
      l.angleBracket? c text = some (x.kind, x.angles) ∧ x.length = 1 ∧ x.contexts = l.contexts := by
  cases finds_of_lexeme hx with
  | angleBracket hcode hrest hangle => exact .inr ⟨_, _, hcode, hrest, hangle, rfl, rfl⟩
  | closingQuote | openingQuote => exact .inl (keepsAngles_quote ..)
  | mark _ _ hmark =>
    have hne := ne_angle_markKind? hmark
    exact .inl ⟨rfl, hne.1, hne.2⟩
  | number => exact .inl (keepsAngles_of_isRun _ (isRun_number _))
  | word => exact .inl (keepsAngles_of_isRun _ (isRun_word ..))
  | operator => exact .inl (keepsAngles_of_isRun _ (isRun_operator ..))
  | backslash | segment | interpolationParen | eof | leftParen | interpolationEnd | rightParen | rawString
  | poundKeyword | pound | dollar | postfixQuestion | unknown => exact .inl ⟨rfl, nofun, nofun⟩

/-- Where an angle bracket is recognized, it is the lexeme. -/
theorem eq_of_angleBracket? {kind : Kind} {angles : AngleMarks} (hcode : l.context.isCode = true)
    (hx : l.lexeme = .ok x) (hrest : l.rest = c :: text) (hc : c = '<' ∨ c = '>')
    (hangle : l.angleBracket? c text = some (kind, angles)) :
    x = ⟨kind, 1, l.contexts, angles⟩ := by
  rw [lexeme_of_isCode hcode] at hx
  unfold codeLexeme at hx
  rw [hrest] at hx
  have hx' : l.operatorLexeme c text = x := by
    rcases hc with rfl | rfl
    all_goals exact Except.ok.inj hx
  unfold operatorLexeme at hx'
  rw [hangle] at hx'
  exact hx'.symm

/-- Where no mark is, an angle bracket opens arguments of its own, whose marks are added. -/
theorem angleBracket?_of_not_mem {kind : Kind} {angles : AngleMarks}
    (hopeners : l.index ∉ l.angles.openers) (hclosers : l.index ∉ l.angles.closers)
    (h : l.angleBracket? c text = some (kind, angles)) :
    c = '<' ∧ kind = .leftAngle ∧
      ∃ marks, marks? 0 '<' (l.index + 1) text = some marks ∧ angles = l.angles.append marks := by
  unfold angleBracket? at h
  split at h
  · rename_i hc
    rw [if_neg (by simpa using hopeners)] at h
    obtain ⟨marks, hmarks, heq⟩ := Option.map_eq_some_iff.mp h
    obtain ⟨rfl, rfl⟩ := Prod.mk.inj heq
    unfold GenericArguments.ofText? at hmarks
    split at hmarks
    · exact ⟨eq_of_beq hc, rfl, marks, hmarks, rfl⟩
    · cases hmarks
  · rw [if_neg (by simpa using fun _ => hclosers)] at h
    cases h

-- ---------------------------------------------------------------------------
-- A lexer among generic arguments
-- ---------------------------------------------------------------------------

/-- Of the places ahead, the lexer knows the marks and no others. -/
def MarksAhead (l : Lexer) (m : AngleMarks) : Prop :=
  ∀ i, l.before.length ≤ i →
    (i ∈ l.angles.openers ↔ i ∈ m.openers) ∧ (i ∈ l.angles.closers ↔ i ∈ m.closers)

/-- The lexer is among generic arguments with these brackets open, innermost first, or outside of any.
-/
structure AmongGenerics (ks : List Char) (l : Lexer) : Prop where
  ahead : ∃ m, Ahead ks l.before l.rest m ∧ l.MarksAhead m
  index_eq : l.index = l.before.length
  code : ks ≠ [] → l.context.isCode = true
  /-- The interpolation around the arguments is not closed by a parenthesis among them. -/
  depth : ∀ depth opening, l.context = .interpolation depth opening → ks.count '(' ≤ depth

theorem index_eq_advance (h : l.index = l.before.length) (n : Nat) :
    (l.advance n).index = (l.advance n).before.length := by
  rw [advance_toCursor, Cursor.advance_index, Cursor.advance_before, List.length_append,
    List.length_reverse, h, Nat.add_comm]

theorem length_le_advance (l : Lexer) (n : Nat) : l.before.length ≤ (l.advance n).before.length := by
  rw [advance_toCursor, Cursor.advance_before, List.length_append]
  exact Nat.le_add_left ..

theorem amongGenerics_ofText (source : List Char) : (ofText source).AmongGenerics [] where
  ahead := ⟨.empty, .closed, fun _ _ => ⟨Iff.rfl, Iff.rfl⟩⟩
  index_eq := rfl
  code h := absurd rfl h
  depth _ _ h := by cases h

namespace AmongGenerics

/-- Trivia changes nothing. -/
theorem gap (h : l.AmongGenerics ks) (trailing atStart : Bool) :
    (l.advance (Gap.ofText trailing atStart l.rest).length).AmongGenerics ks where
  ahead := by
    obtain ⟨m, hahead, hmarks⟩ := h.ahead
    refine ⟨m, ?_, fun i hi => hmarks i (Nat.le_trans (l.length_le_advance _) hi)⟩
    cases ks with
    | nil =>
      cases hahead
      exact .closed
    | cons k ks => exact hahead.gap
  index_eq := index_eq_advance h.index_eq _
  code := h.code
  depth := h.depth

theorem takeLeading {here : Lexer} {leading : Trivia} (h : l.AmongGenerics ks)
    (hleading : l.takeLeading = (.ok leading, here)) : here.AmongGenerics ks := by
  unfold Lexer.takeLeading at hleading
  split at hleading
  · obtain ⟨-, -, rfl⟩ := takeGap_ok_iff.mp hleading
    exact h.gap ..
  · obtain ⟨-, rfl⟩ := Prod.mk.inj hleading
    exact h

theorem takeTrailing {behind : Lexer} {kind : Kind} {trailing : Trivia} (h : l.AmongGenerics ks)
    (htrailing : l.takeTrailing kind = (.ok trailing, behind)) : behind.AmongGenerics ks := by
  unfold Lexer.takeTrailing at htrailing
  split at htrailing
  · obtain ⟨-, -, rfl⟩ := takeGap_ok_iff.mp htrailing
    exact h.gap ..
  · obtain ⟨-, rfl⟩ := Prod.mk.inj htrailing
    exact h

end AmongGenerics

-- ---------------------------------------------------------------------------
-- Lexemes that are no brackets
-- ---------------------------------------------------------------------------

/-- The lexeme is no bracket, and neither are the characters that it takes. -/
structure IsInertLexeme (l : Lexer) (ks : List Char) (m : AngleMarks) (x : Lexeme) : Prop where
  kind : x.kind.isBracket = false
  contexts : x.contexts = l.contexts
  angles : x.angles = l.angles
  ahead : Ahead ks ((l.rest.take x.length).reverse ++ l.before) (l.rest.drop x.length) m

section Inert

variable {k : Char} {m : AngleMarks}

/-- A lexeme of one character. -/
theorem isInertLexeme_one {kind : Kind} (hkind : kind.isBracket = false) (hrest : l.rest = c :: text)
    (h : Ahead ks (c :: l.before) text m) : IsInertLexeme l ks m (l.plain kind 1) where
  kind := hkind
  contexts := rfl
  angles := rfl
  ahead := by
    rw [hrest]
    exact h

theorem isInertLexeme_take {kind : Kind} {n : Nat} (hkind : kind.isBracket = false)
    (h : Ahead (k :: ks) l.before l.rest m) (hs : ∀ c ∈ l.rest.take n, c ∉ brackets) :
    IsInertLexeme l (k :: ks) m (l.plain kind n) where
  kind := hkind
  contexts := rfl
  angles := rfl
  ahead := h.take hs

/-- An operator that starts where no mark is takes no bracket. -/
theorem isInertLexeme_operator (hrest : l.rest = c :: text) (hc : isOperatorChar c = true ∨ c = '.')
    (hinert : IsInert l.before c text) (hangle : l.angleBracket? c text = none)
    (hindex : l.index = l.before.length)
    (h : Ahead (k :: ks) (c :: l.before) text m) (hmarks : l.MarksAhead m) :
    IsInertLexeme l (k :: ks) m (l.operatorLexeme c text) := by
  unfold operatorLexeme
  rw [hangle]
  simp only
  split
  · exact isInertLexeme_one rfl hrest h
  · rename_i hquestion
    have hbegun : operatorUnderWay (c :: l.before) = true := by
      refine operatorUnderWay_cons hinert hc fun hmark => .inr ?_
      rw [hmark] at hquestion
      simpa using hquestion
    have hextension := Ahead.extension (c == '.') h hbegun (fun i hi =>
      (hmarks i (Nat.le_of_succ_le hi)).2)
    rw [List.length_cons, ← hindex] at hextension
    refine ⟨Kind.isBracket_of_isRun (isRun_operator ..), rfl, rfl, ?_⟩
    show Ahead _ ((l.rest.take (1 + _)).reverse ++ l.before) (l.rest.drop (1 + _)) m
    rw [hrest, Nat.add_comm, List.take_succ_cons, List.drop_succ_cons, List.reverse_cons,
      List.append_assoc]
    exact hextension

theorem not_bracket_of_isWordChar {c : Char} (h : isWordChar c = true) : c ∉ brackets := by
  have hbrackets : ∀ c ∈ brackets, isWordChar c = false := forall_mem_brackets.mpr (by decide)
  intro hc
  rw [hbrackets c hc] at h
  cases h

/-- A lexeme that starts with a word character is a number, a word or a lone character. -/
theorem isInertLexeme_word (hrest : l.rest = c :: text) (hc : isWordChar c = true)
    (h : Ahead (k :: ks) l.before l.rest m) (hx : l.codeLexeme = .ok x) :
    IsInertLexeme l (k :: ks) m x := by
  rw [codeLexeme_of_isWordChar hrest hc] at hx
  split at hx
  · obtain rfl := Except.ok.inj hx
    refine isInertLexeme_take (Kind.isBracket_of_isRun (isRun_number _)) h ?_
    rw [hrest]
    exact Number.take_ofText_bracketless (c :: text)
  split at hx
  · obtain rfl := Except.ok.inj hx
    refine isInertLexeme_take (Kind.isBracket_of_isRun (isRun_word ..)) h fun d hd => ?_
    refine not_bracket_of_isWordChar ?_
    rw [hrest, Nat.add_comm, List.take_succ_cons] at hd
    rcases List.mem_cons.mp hd with rfl | hd
    · exact hc
    · exact of_mem_take_takeWhile hd
  · obtain rfl := Except.ok.inj hx
    refine isInertLexeme_take rfl h fun d hd => not_bracket_of_isWordChar ?_
    rw [hrest, List.take_succ_cons, List.take_zero] at hd
    rwa [List.mem_singleton.mp hd]

/-- A lexeme that starts where no bracket is takes none. -/
theorem isInertLexeme_of_isInert (hcode : l.context.isCode = true) (hrest : l.rest = c :: text)
    (hc : IsInert l.before c text) (h : Ahead (k :: ks) (c :: l.before) text m)
    (hmarks : l.MarksAhead m) (hindex : l.index = l.before.length) (hx : l.lexeme = .ok x) :
    IsInertLexeme l (k :: ks) m x := by
  rw [lexeme_of_isCode hcode] at hx
  have hoperator : (isOperatorChar c = true ∨ c = '.') → l.angleBracket? c text = none →
      IsInertLexeme l (k :: ks) m (l.operatorLexeme c text) :=
    fun hc' hangle => isInertLexeme_operator hrest hc' hc hangle hindex h hmarks
  rcases hc with hc | hword | ⟨rfl, hc⟩ | ⟨rfl, hc⟩
  · unfold codeLexeme at hx
    rw [hrest] at hx
    simp only [List.mem_cons, List.not_mem_nil, or_false] at hc
    rcases hc with rfl | rfl | rfl | rfl | rfl | rfl | rfl
    · obtain rfl : l.plain .unknown 1 = x := Except.ok.inj hx
      exact isInertLexeme_one rfl hrest h
    · obtain rfl : l.plain .unknown 1 = x := Except.ok.inj hx
      exact isInertLexeme_one rfl hrest h
    · obtain rfl : l.plain .comma 1 = x := Except.ok.inj hx
      exact isInertLexeme_one rfl hrest h
    · obtain rfl : l.operatorLexeme '.' text = x := Except.ok.inj hx
      exact hoperator (.inr rfl) rfl
    · obtain rfl : l.operatorLexeme '?' text = x := Except.ok.inj hx
      exact hoperator (.inl rfl) rfl
    · obtain rfl : l.operatorLexeme '!' text = x := Except.ok.inj hx
      exact hoperator (.inl rfl) rfl
    · obtain rfl : l.plain .colon 1 = x := Except.ok.inj hx
      exact isInertLexeme_one rfl hrest h
  · refine isInertLexeme_word hrest hword ?_ hx
    rw [hrest]
    exact .inert (.inr (.inl hword)) h
  · unfold codeLexeme at hx
    rw [hrest] at hx
    obtain rfl : l.operatorLexeme '-' text = x := Except.ok.inj hx
    exact hoperator (.inl rfl) rfl
  · unfold codeLexeme at hx
    rw [hrest] at hx
    obtain rfl : l.operatorLexeme '>' text = x := Except.ok.inj hx
    -- the sign of an arrow is not marked: the marks ahead are those behind it
    have hnot : l.index ∉ l.angles.closers := by
      intro hmem
      rw [hindex] at hmem
      have hle := h.le_of_mem (.inr (((hmarks _ (Nat.le_refl _)).2).mp hmem))
      exact absurd hle (Nat.not_succ_le_self _)
    refine hoperator (.inl rfl) ?_
    show (if ('>' == '>' && l.angles.closers.contains l.index) then
      some (Kind.rightAngle, l.angles) else none) = none
    rw [if_neg (by simpa using hnot)]

end Inert

-- ---------------------------------------------------------------------------
-- One lexeme
-- ---------------------------------------------------------------------------

namespace AmongGenerics

variable {ks' : List Char} {m m' : AngleMarks}

/-- A lexeme that leaves the marks alone leads among the generic arguments that lie ahead of it. -/
theorem accept (h : l.AmongGenerics ks) (hmarks : l.MarksAhead m) (hangles : x.angles = l.angles)
    (hahead : Ahead ks' ((l.rest.take x.length).reverse ++ l.before) (l.rest.drop x.length) m')
    (hsame : ∀ i, ((l.rest.take x.length).reverse ++ l.before).length ≤ i →
      (i ∈ m.openers ↔ i ∈ m'.openers) ∧ (i ∈ m.closers ↔ i ∈ m'.closers))
    (hcode : ks' ≠ [] → (Context.innermost x.contexts).isCode = true)
    (hdepth : ∀ depth opening, Context.innermost x.contexts = .interpolation depth opening →
      ks'.count '(' ≤ depth) : (l.accept x).AmongGenerics ks' where
  ahead := by
    refine ⟨m', hahead, fun i hi => ?_⟩
    have hle := Nat.le_trans (l.length_le_advance x.length) hi
    show (i ∈ x.angles.openers ↔ _) ∧ (i ∈ x.angles.closers ↔ _)
    rw [hangles]
    exact ⟨(hmarks i hle).1.trans (hsame i hi).1, (hmarks i hle).2.trans (hsame i hi).2⟩
  index_eq := index_eq_advance h.index_eq x.length
  code := hcode
  depth := hdepth

/-- A bracket is a lexeme of one character. -/
theorem accept_bracket (h : l.AmongGenerics ks) (hmarks : l.MarksAhead m) (hangles : x.angles = l.angles)
    (hlength : x.length = 1) (hrest : l.rest = c :: text) (hahead : Ahead ks' (c :: l.before) text m')
    (hsame : ∀ i, l.before.length < i →
      (i ∈ m.openers ↔ i ∈ m'.openers) ∧ (i ∈ m.closers ↔ i ∈ m'.closers))
    (hcode : (Context.innermost x.contexts).isCode = true)
    (hdepth : ∀ depth opening, Context.innermost x.contexts = .interpolation depth opening →
      ks'.count '(' ≤ depth) : (l.accept x).AmongGenerics ks' := by
  have htake : l.rest.take x.length = [c] := by rw [hrest, hlength]; rfl
  have hdrop : l.rest.drop x.length = text := by rw [hrest, hlength]; rfl
  have hahead' : Ahead ks' ((l.rest.take x.length).reverse ++ l.before) (l.rest.drop x.length) m' := by
    rw [htake, hdrop]
    exact hahead
  refine h.accept hmarks hangles hahead' ?_ (fun _ => hcode) hdepth
  rw [htake]
  exact hsame

/-- Outside of generic arguments, only an opening bracket leads into some. -/
theorem lexeme_outside (h : l.AmongGenerics []) (hx : l.lexeme = .ok x)
    (hnests : x.kind = .leftAngle → nests ['<'] ['<'] (l.rest.drop x.length) = true) :
    ∃ ks, (l.accept x).AmongGenerics ks ∧ AngleStep x.kind [] ks := by
  obtain ⟨m, hahead, hmarks⟩ := h.ahead
  cases hahead
  rcases angles_cases hx with hkeeps | ⟨c, text, hcode, hrest, hangle, hlength, hcontexts⟩
  · have haccept : (l.accept x).AmongGenerics [] :=
      h.accept hmarks hkeeps.angles_eq .closed (fun _ _ => ⟨Iff.rfl, Iff.rfl⟩)
        (fun hne => absurd rfl hne) (fun _ _ _ => Nat.zero_le _)
    exact ⟨[], haccept, .outside hkeeps.ne_leftAngle hkeeps.ne_rightAngle⟩
  · -- no mark is ahead, so the bracket opens arguments of its own
    have hnone : ∀ i, l.before.length ≤ i →
        i ∉ l.angles.openers ∧ i ∉ l.angles.closers := fun i hi =>
      ⟨fun hmem => List.not_mem_nil ((hmarks i hi).1.mp hmem),
        fun hmem => List.not_mem_nil ((hmarks i hi).2.mp hmem)⟩
    obtain ⟨hopeners, hclosers⟩ := hnone l.index (Nat.le_of_eq h.index_eq.symm)
    obtain ⟨rfl, hkind, marks, hmarks', hangles⟩ := angleBracket?_of_not_mem hopeners hclosers hangle
    have htake : l.rest.take x.length = ['<'] := by rw [hrest, hlength]; rfl
    have hdrop : l.rest.drop x.length = text := by rw [hrest, hlength]; rfl
    have hnest := hnests hkind
    rw [hdrop] at hnest
    have hindex : (['<'] ++ l.before).length = l.index + 1 := by
      rw [List.singleton_append, List.length_cons, h.index_eq]
    have hahead : Ahead ['<'] ('<' :: l.before) text marks :=
      ahead_of_marks? hmarks' hnest ⟨rfl, rfl⟩ rfl rfl hindex
    have haccept : (l.accept x).AmongGenerics ['<'] := by
      refine ⟨⟨marks, ?_, fun i hi => ?_⟩, index_eq_advance h.index_eq x.length, fun _ => ?_,
        fun _ _ _ => Nat.zero_le _⟩
      · show Ahead ['<'] ((l.rest.take x.length).reverse ++ l.before) (l.rest.drop x.length) marks
        rw [htake, hdrop]
        exact hahead
      · obtain ⟨hopeners, hclosers⟩ := hnone i (Nat.le_trans (l.length_le_advance x.length) hi)
        show (i ∈ x.angles.openers ↔ _) ∧ (i ∈ x.angles.closers ↔ _)
        rw [hangles]
        exact ⟨List.mem_append.trans (or_iff_right hopeners),
          List.mem_append.trans (or_iff_right hclosers)⟩
      · show (Context.innermost x.contexts).isCode = true
        rw [hcontexts]
        exact hcode
    exact ⟨['<'], haccept, hkind ▸ .leftAngle⟩

section Inside

variable {k : Char}

theorem lexeme_angleOpen (h : l.AmongGenerics (k :: ks)) (hcode : l.context.isCode = true)
    (hmarks : l.MarksAhead (m.withOpener l.before.length)) (hrest : l.rest = '<' :: text)
    (hahead : Ahead ('<' :: k :: ks) ('<' :: l.before) text m) (hx : l.lexeme = .ok x) :
    (l.accept x).AmongGenerics ('<' :: k :: ks) ∧ x.kind = .leftAngle := by
  have hmark : l.angles.openers.contains l.index = true := by
    rw [List.contains_iff_mem, h.index_eq]
    exact (hmarks _ (Nat.le_refl _)).1.mpr (List.mem_cons_self ..)
  have hangle : l.angleBracket? '<' text = some (.leftAngle, l.angles) := if_pos hmark
  obtain rfl := eq_of_angleBracket? hcode hx hrest (.inl rfl) hangle
  refine ⟨h.accept_bracket hmarks rfl rfl hrest hahead (fun i hi => ⟨?_, Iff.rfl⟩) hcode ?_, rfl⟩
  · exact List.mem_cons.trans (or_iff_right (Nat.ne_of_gt hi))
  · intro depth opening hcontext
    rw [List.count_cons_of_ne (by decide)]
    exact h.depth depth opening hcontext

theorem lexeme_angleClose (h : l.AmongGenerics ('<' :: ks)) (hcode : l.context.isCode = true)
    (hmarks : l.MarksAhead (m.withCloser l.before.length)) (hrest : l.rest = '>' :: text)
    (hahead : Ahead ks ('>' :: l.before) text m) (hx : l.lexeme = .ok x) :
    (l.accept x).AmongGenerics ks ∧ x.kind = .rightAngle := by
  have hmark : l.angles.closers.contains l.index = true := by
    rw [List.contains_iff_mem, h.index_eq]
    exact (hmarks _ (Nat.le_refl _)).2.mpr (List.mem_cons_self ..)
  have hangle : l.angleBracket? '>' text = some (.rightAngle, l.angles) := if_pos hmark
  obtain rfl := eq_of_angleBracket? hcode hx hrest (.inr rfl) hangle
  refine ⟨h.accept_bracket hmarks rfl rfl hrest hahead (fun i hi => ⟨Iff.rfl, ?_⟩) hcode ?_, rfl⟩
  · exact List.mem_cons.trans (or_iff_right (Nat.ne_of_gt hi))
  · intro depth opening hcontext
    have hle := h.depth depth opening hcontext
    rwa [List.count_cons_of_ne (by decide)] at hle

theorem lexeme_bracketOpen (h : l.AmongGenerics (k :: ks)) (hcode : l.context.isCode = true)
    (hmarks : l.MarksAhead m) (hc : c = '(' ∨ c = '[') (hrest : l.rest = c :: text)
    (hahead : Ahead (c :: k :: ks) (c :: l.before) text m) (hx : l.lexeme = .ok x) :
    (l.accept x).AmongGenerics (c :: k :: ks) ∧ x.kind.opensGroup = true := by
  rw [lexeme_of_isCode hcode] at hx
  unfold codeLexeme at hx
  rw [hrest] at hx
  rcases hc with rfl | rfl
  · obtain rfl : { l.plain .leftParen 1 with contexts := Context.enterParen l.contexts } = x :=
      Except.ok.inj hx
    refine ⟨h.accept_bracket hmarks rfl rfl hrest hahead (fun _ _ => ⟨Iff.rfl, Iff.rfl⟩)
      ((Context.isCode_enterParen _).trans hcode) ?_, rfl⟩
    intro depth opening hcontext
    obtain ⟨d, rfl, hd⟩ := Context.of_innermost_enterParen hcontext
    rw [List.count_cons_self]
    exact Nat.succ_le_succ (h.depth d opening hd)
  · obtain rfl : l.plain .leftBracket 1 = x := Except.ok.inj hx
    refine ⟨h.accept_bracket hmarks rfl rfl hrest hahead (fun _ _ => ⟨Iff.rfl, Iff.rfl⟩) hcode ?_,
      rfl⟩
    intro depth opening hcontext
    rw [List.count_cons_of_ne (by decide)]
    exact h.depth depth opening hcontext

theorem lexeme_bracketClose (h : l.AmongGenerics (k :: ks)) (hcode : l.context.isCode = true)
    (hmarks : l.MarksAhead m) (hpair : pairs k c = true) (hrest : l.rest = c :: text)
    (hahead : Ahead ks (c :: l.before) text m) (hx : l.lexeme = .ok x) :
    (l.accept x).AmongGenerics ks ∧ x.kind.closesGroup = true := by
  rw [lexeme_of_isCode hcode] at hx
  unfold codeLexeme at hx
  rw [hrest] at hx
  unfold pairs at hpair
  split at hpair
  · -- the interpolation around the arguments has a parenthesis open
    have hends : l.context.endsInterpolation = false := by
      cases hcontext : l.context with
      | interpolation depth opening =>
        have hle := h.depth depth opening hcontext
        rw [List.count_cons_self] at hle
        have hpos : 0 < depth := Nat.le_trans (Nat.succ_pos _) hle
        obtain ⟨d, rfl⟩ := Nat.exists_eq_succ_of_ne_zero (Nat.ne_of_gt hpos)
        rfl
      | code | string | interpolationStart => rfl
    replace hx : l.closingParen = x := Except.ok.inj hx
    unfold closingParen at hx
    rw [hends, if_neg Bool.false_ne_true] at hx
    subst hx
    refine ⟨h.accept_bracket hmarks rfl rfl hrest hahead (fun _ _ => ⟨Iff.rfl, Iff.rfl⟩)
      ((Context.isCode_leaveParen _).trans hcode) ?_, rfl⟩
    intro depth opening hcontext
    have hle := h.depth (depth + 1) opening (Context.of_innermost_leaveParen hends hcontext)
    rw [List.count_cons_self] at hle
    exact Nat.le_of_succ_le_succ hle
  · obtain rfl : l.plain .rightBracket 1 = x := Except.ok.inj hx
    refine ⟨h.accept_bracket hmarks rfl rfl hrest hahead (fun _ _ => ⟨Iff.rfl, Iff.rfl⟩) hcode ?_,
      rfl⟩
    intro depth opening hcontext
    have hle := h.depth depth opening hcontext
    rwa [List.count_cons_of_ne (by decide)] at hle
  · cases hpair

/-- Among generic arguments, a lexeme does what the character that it starts with does. -/
theorem lexeme_inside (h : l.AmongGenerics (k :: ks)) (hx : l.lexeme = .ok x) :
    ∃ ks', (l.accept x).AmongGenerics ks' ∧ AngleStep x.kind (k :: ks) ks' := by
  have hcode := h.code (by simp)
  obtain ⟨m, hahead, hmarks⟩ := h.ahead
  generalize hrest : l.rest = rest at hahead
  cases hahead with
  | angleOpen _ hahead =>
    obtain ⟨haccept, hkind⟩ := h.lexeme_angleOpen hcode hmarks hrest hahead hx
    exact ⟨_, haccept, hkind ▸ .leftAngle⟩
  | angleClose _ hahead =>
    obtain ⟨haccept, hkind⟩ := h.lexeme_angleClose hcode hmarks hrest hahead hx
    exact ⟨_, haccept, hkind ▸ .rightAngle⟩
  | bracketOpen hc hahead =>
    obtain ⟨haccept, hopens⟩ := h.lexeme_bracketOpen hcode hmarks hc hrest hahead hx
    exact ⟨_, haccept, .opening hopens (by rcases hc with rfl | rfl <;> decide)⟩
  | bracketClose hpair hahead =>
    obtain ⟨haccept, hcloses⟩ := h.lexeme_bracketClose hcode hmarks hpair hrest hahead hx
    exact ⟨_, haccept, .closing hcloses (by rintro rfl; cases hpair)⟩
  | inert hc hahead =>
    have hinert := isInertLexeme_of_isInert hcode hrest hc hahead hmarks h.index_eq hx
    have haccept : (l.accept x).AmongGenerics (k :: ks) := by
      refine h.accept hmarks hinert.angles hinert.ahead (fun _ _ => ⟨Iff.rfl, Iff.rfl⟩) ?_ ?_
      · intro _
        rw [hinert.contexts]
        exact hcode
      · rw [hinert.contexts]
        exact h.depth
    exact ⟨_, haccept, .inert hinert.kind⟩

end Inside

theorem lexeme (h : l.AmongGenerics ks) (hx : l.lexeme = .ok x)
    (hnests : x.kind = .leftAngle → nests ['<'] ['<'] (l.rest.drop x.length) = true) :
    ∃ ks', (l.accept x).AmongGenerics ks' ∧ AngleStep x.kind ks ks' := by
  cases ks with
  | nil => exact h.lexeme_outside hx hnests
  | cons k ks => exact h.lexeme_inside hx

-- ---------------------------------------------------------------------------
-- One call
-- ---------------------------------------------------------------------------

/-- A call leads among the generic arguments that its token leads into, if the text behind an opening
angle bracket nests. -/
theorem next {behind : Lexer} {t : Token} (h : l.AmongGenerics ks) (hnext : l.next = (.ok t, behind))
    (hnests : t.kind = .leftAngle → nests ['<'] ['<'] (t.trailing.text ++ behind.rest) = true) :
    ∃ ks', behind.AmongGenerics ks' ∧ AngleStep t.kind ks ks' := by
  obtain ⟨leading, here, x, trailing, hleading, hx, htrailing, rfl⟩ := next_ok_iff.mp hnext
  rw [← (takeTrailing_ok htrailing).1.rest_eq] at hnests
  obtain ⟨ks', haccept, hstep⟩ := (h.takeLeading hleading).lexeme hx hnests
  exact ⟨ks', haccept.takeTrailing htrailing, hstep⟩

/-- The source does not end among generic arguments. -/
theorem eq_nil_of_eof {behind : Lexer} {t : Token} (h : l.AmongGenerics ks)
    (hnext : l.next = (.ok t, behind)) (hkind : t.kind = .eof) : ks = [] := by
  obtain ⟨leading, here, x, trailing, hleading, hx, -, rfl⟩ := next_ok_iff.mp hnext
  obtain ⟨m, hahead, -⟩ := (h.takeLeading hleading).ahead
  rw [(at_end_of_kind_eof hx hkind).2] at hahead
  cases hahead
  rfl

end AmongGenerics

end Lexer

end SwiftColoring
