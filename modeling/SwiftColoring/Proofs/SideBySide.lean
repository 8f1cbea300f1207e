import Mathlib.Data.List.Forall2
import SwiftColoring.Proofs.Lexeme
import SwiftColoring.Proofs.Stop

/-!
# Two lexers side by side

Two lexers stand before the same text in two sources. What stands before the text and behind it may
differ, as long as no lexeme in the text can tell: what is asked about the character before it is
answered alike, and whatever follows ends it. The indexes of the one source answer to those of the
other, and with them the angle brackets that the lexers know. If they are in contexts of the same sort,
both find the same lexeme.

* `Matching` — which indexes of two sources answer to each other.
* `Lexer.Beside` — two lexers before the same text.
* `Lexer.Beside.lexeme` — they find the same lexeme.
* `Context.AllLike.behind` — contexts that differ in places only do so behind it.
-/

namespace SwiftColoring

-- ---------------------------------------------------------------------------
-- What answers to what
-- ---------------------------------------------------------------------------

/-- Which indexes of two sources answer to each other. -/
structure Matching where
  index : Nat → Nat → Prop
  /-- An index answers to one index at most. -/
  unique : ∀ {i j i' j' : Nat}, index i j → index i' j' → (i = i' ↔ j = j')

/-- Indexes that answer to each other are marked alike. -/
structure AngleMarks.Like (M : Matching) (m m' : AngleMarks) : Prop where
  openers : ∀ {i j : Nat}, M.index i j → m.openers.contains i = m'.openers.contains j
  closers : ∀ {i j : Nat}, M.index i j → m.closers.contains i = m'.closers.contains j

variable {M : Matching}

namespace AngleMarks.Like

variable {m m' n n' : AngleMarks} {i j : Nat}

theorem empty (M : Matching) : Like M .empty .empty where
  openers _ := rfl
  closers _ := rfl

/-- Marks that are alike stay so when more are added that are alike. -/
theorem append (h : Like M m m') (hn : Like M n n') : Like M (m.append n) (m'.append n') where
  openers hij := by
    simp only [AngleMarks.append, List.contains_append, h.openers hij, hn.openers hij]
  closers hij := by
    simp only [AngleMarks.append, List.contains_append, h.closers hij, hn.closers hij]

/-- Indexes that answer to each other may be added on both sides. -/
private theorem contains_cons {i j : Nat} {is js : List Nat} (hij : M.index i j)
    (h : ∀ {i j : Nat}, M.index i j → is.contains i = js.contains j) {i' j' : Nat}
    (hij' : M.index i' j') : (i :: is).contains i' = (j :: js).contains j' := by
  have heq : (i' == i) = (j' == j) := by
    rw [Bool.eq_iff_iff, beq_iff_eq, beq_iff_eq]
    exact M.unique hij' hij
  rw [List.contains_cons, List.contains_cons, heq, h hij']

theorem withOpener (h : Like M m m') (hij : M.index i j) : Like M (m.withOpener i) (m'.withOpener j) where
  openers := contains_cons hij h.openers
  closers := h.closers

theorem withCloser (h : Like M m m') (hij : M.index i j) : Like M (m.withCloser i) (m'.withCloser j) where
  openers := h.openers
  closers := contains_cons hij h.closers

end AngleMarks.Like

/-- Marks that were found on both sides, or on neither, are changed alike. -/
theorem AngleMarks.rel_map {a b : Option AngleMarks} {f g : AngleMarks → AngleMarks}
    (h : Option.Rel (Like M) a b) (hfg : ∀ {m n : AngleMarks}, Like M m n → Like M (f m) (g n)) :
    Option.Rel (Like M) (a.map f) (b.map g) := by
  cases h with
  | none => exact .none
  | some hm => exact .some (hfg hm)

-- ---------------------------------------------------------------------------
-- Contexts
-- ---------------------------------------------------------------------------

/-- Contexts of the same sort: the same text begins with the same lexeme in both, but for a parenthesis
that ends an interpolation. -/
inductive Context.SameSort : Context → Context → Prop where
  | code {c c' : Context} (h : c.isCode = true) (h' : c'.isCode = true) : SameSort c c'
  | string (multiline : Bool) (o o' : Pos) : SameSort (.string multiline o) (.string multiline o')
  | interpolationStart (o o' : Pos) : SameSort (.interpolationStart o) (.interpolationStart o')

/-- The same context, opened anywhere. -/
inductive Context.Like : Context → Context → Prop where
  | code : Like .code .code
  | string (multiline : Bool) (o o' : Pos) : Like (.string multiline o) (.string multiline o')
  | interpolationStart (o o' : Pos) : Like (.interpolationStart o) (.interpolationStart o')
  | interpolation (depth : Nat) (o o' : Pos) : Like (.interpolation depth o) (.interpolation depth o')

namespace Context.Like

variable {c c' : Context}

theorem refl (c : Context) : Like c c := by
  cases c <;> constructor

/-- Contexts that differ in places only are of the same sort. -/
theorem sameSort (h : Like c c') : SameSort c c' := by
  cases h with
  | code | interpolation => exact .code rfl rfl
  | string multiline o o' => exact .string multiline o o'
  | interpolationStart o o' => exact .interpolationStart o o'

theorem isCode_eq (h : Like c c') : c'.isCode = c.isCode := by
  cases h <;> rfl

theorem endsInterpolation_eq (h : Like c c') : c'.endsInterpolation = c.endsInterpolation := by
  cases h with
  | interpolation depth => cases depth <;> rfl
  | code | string | interpolationStart => rfl

end Context.Like

/-- Contexts that are the same one by one, opened anywhere. -/
abbrev Context.AllLike : List Context → List Context → Prop := List.Forall₂ Context.Like

namespace Context.AllLike

variable {cs cs' : List Context}

/-- The innermost of contexts that are alike are alike. -/
theorem innermost (h : AllLike cs cs') : Like (innermost cs) (innermost cs') := by
  cases h with
  | nil => exact .code
  | cons h => exact h

/-- So are those around them. -/
theorem tail (h : AllLike cs cs') : AllLike cs.tail cs'.tail := by
  cases h with
  | nil => exact .nil
  | cons _ h => exact h

/-- A parenthesis that opens is counted on both sides, or on neither. -/
theorem enterParen (h : AllLike cs cs') : AllLike (enterParen cs) (Context.enterParen cs') := by
  cases h with
  | nil => exact .nil
  | cons h houter =>
    cases h with
    | interpolation depth o o' => exact .cons (.interpolation (depth + 1) o o') houter
    | code => exact .cons .code houter
    | string multiline o o' => exact .cons (.string multiline o o') houter
    | interpolationStart o o' => exact .cons (.interpolationStart o o') houter

/-- So is one that closes. -/
theorem leaveParen (h : AllLike cs cs') : AllLike (leaveParen cs) (Context.leaveParen cs') := by
  cases h with
  | nil => exact .nil
  | cons h houter =>
    cases h with
    | interpolation depth o o' => cases depth <;> exact .cons (.interpolation _ o o') houter
    | code => exact .cons .code houter
    | string multiline o o' => exact .cons (.string multiline o o') houter
    | interpolationStart o o' => exact .cons (.interpolationStart o o') houter

theorem behindCode (h : AllLike cs cs') (kind : Kind) (pos pos' : Pos) :
    AllLike (behindCode kind pos cs) (Context.behindCode kind pos' cs') := by
  unfold Context.behindCode
  split
  · exact h.enterParen
  · exact h.leaveParen
  · exact h.tail
  · exact .cons (.string ..) h
  · exact .cons (.string ..) h
  · exact h

/-- A lexeme keeps contexts alike. -/
theorem behind (h : AllLike cs cs') (kind : Kind) (pos pos' : Pos) :
    AllLike (behind kind pos cs) (Context.behind kind pos' cs') := by
  have hinnermost := h.innermost
  unfold Context.behind
  generalize Context.innermost cs = c at hinnermost
  generalize Context.innermost cs' = c' at hinnermost
  cases hinnermost with
  | code | interpolation => exact h.behindCode kind pos pos'
  | interpolationStart o o' => exact .cons (.interpolation 0 o o') h.tail
  | string multiline o o' =>
    simp only
    split
    · exact h.tail
    · exact h.tail
    · exact .cons (.interpolationStart o o') h
    · exact h

end Context.AllLike

-- ---------------------------------------------------------------------------
-- What stands around a text
-- ---------------------------------------------------------------------------

/-- What stands before a text, nearest first, answers alike to what its first lexeme asks. -/
structure PrecedesAlike (before before' : List Char) : Prop where
  wordChar : before'.head?.any isWordChar = before.head?.any isWordChar
  tick : (before'.head? == some '`') = (before.head? == some '`')
  dot : (before'.head? != some '.') = (before.head? != some '.')
  leftBound : Operator.isLeftBound before' = Operator.isLeftBound before

theorem PrecedesAlike.refl (before : List Char) : PrecedesAlike before before := ⟨rfl, rfl, rfl, rfl⟩

/-- What follows a text, from the two indexes on, ends the text alike. -/
structure FollowsAlike (M : Matching) (index index' : Nat) (x x' : List Char) : Prop where
  stops : Stops x
  stops' : Stops x'
  keyword : ∀ word, Word.actsAsKeyword word x' = Word.actsAsKeyword word x
  marks : ∀ nested previous, Option.Rel (AngleMarks.Like M)
    (GenericArguments.marks? nested previous index x) (GenericArguments.marks? nested previous index' x')

/-- What follows the last bracket leaves it a bracket. -/
theorem GenericArguments.isFollowedWell_stop {x : List Char} (hx : Stops x) : isFollowedWell x = true := by
  cases x with
  | nil => rfl
  | cons c more =>
    have hfollower : ∀ c ∈ stoppers, followers.contains c = true := forall_stoppers (by decide)
    exact hfollower c hx.head_mem

/-- The brackets of a text are marked alike if those of what follows it are. -/
theorem FollowsAlike.marks_append {index index' : Nat} {x x' : List Char}
    (h : FollowsAlike M index index' x x') (nested : Nat) (previous : Char) {text : List Char} {i j : Nat}
    (hi : i + text.length = index) (hj : j + text.length = index')
    (hindex : ∀ k < text.length, M.index (i + k) (j + k)) :
    Option.Rel (AngleMarks.Like M) (GenericArguments.marks? nested previous i (text ++ x))
      (GenericArguments.marks? nested previous j (text ++ x')) := by
  induction text generalizing nested previous i j with
  | nil =>
    obtain rfl : i = index := hi
    obtain rfl : j = index' := hj
    exact h.marks nested previous
  | cons c text ih =>
    have hhere : M.index i j := hindex 0 (Nat.succ_pos _)
    have hrest : ∀ nested previous, Option.Rel (AngleMarks.Like M)
        (GenericArguments.marks? nested previous (i + 1) (text ++ x))
        (GenericArguments.marks? nested previous (j + 1) (text ++ x')) := by
      intro nested previous
      rw [List.length_cons] at hi hj
      refine ih nested previous (by omega) (by omega) fun k hk => ?_
      rw [Nat.add_assoc, Nat.add_assoc, Nat.add_comm 1 k]
      exact hindex (k + 1) (Nat.succ_lt_succ hk)
    have harrow : ∀ {z : List Char}, Stops z →
        ((text ++ z).head? == some '>') = (text.head? == some '>') := by
      intro z hz
      cases text with
      | cons d text => rfl
      | nil =>
        cases z with
        | nil => rfl
        | cons d z =>
          have hno : ∀ d ∈ stoppers, (some d == some '>') = false := forall_stoppers (by decide)
          exact hno d hz.head_mem
    have hwell : ∀ {z : List Char}, Stops z → GenericArguments.isFollowedWell (text ++ z) =
        GenericArguments.isFollowedWell text := by
      intro z hz
      cases text with
      | cons d text => rfl
      | nil => exact GenericArguments.isFollowedWell_stop hz
    simp only [List.cons_append, GenericArguments.marks?, harrow h.stops, harrow h.stops', hwell h.stops,
      hwell h.stops']
    split
    · exact AngleMarks.rel_map (hrest _ _) fun hm => hm.withOpener hhere
    split
    · cases nested with
      | zero =>
        simp only
        split
        · exact .some ((AngleMarks.Like.empty M).withCloser hhere)
        · exact .none
      | succ nested => exact AngleMarks.rel_map (hrest _ _) fun hm => hm.withCloser hhere
    split
    · exact hrest _ _
    · exact .none

/-- The same lexeme, with brackets that answer to each other. -/
structure Lexeme.Like (M : Matching) (y y' : Lexeme) : Prop where
  kind : y'.kind = y.kind
  length : y'.length = y.length
  angles : AngleMarks.Like M y.angles y'.angles

namespace Lexer

/-- The two lexers stand before the same text. -/
structure Beside (M : Matching) (text x x' : List Char) (l l' : Lexer) : Prop where
  rest : l.rest = text ++ x
  rest' : l'.rest = text ++ x'
  precedes : PrecedesAlike l.before l'.before
  follows : FollowsAlike M (l.index + text.length) (l'.index + text.length) x x'
  index : ∀ k < text.length, M.index (l.index + k) (l'.index + k)
  context : l.context.SameSort l'.context
  /-- A parenthesis ends an interpolation in both or in none. -/
  paren : text.head? = some ')' → l'.context.endsInterpolation = l.context.endsInterpolation
  angles : AngleMarks.Like M l.angles l'.angles

namespace Beside

variable {text x x' : List Char} {l l' : Lexer} {y : Lexeme} {c : Char}

/-- A lexeme that changes nothing is the same on both sides. -/
theorem plain (h : Beside M text x x' l l') (kind : Kind) (length : Nat) :
    Lexeme.Like M (l.plain kind length) (l'.plain kind length) :=
  ⟨rfl, rfl, h.angles⟩

-- ---------------------------------------------------------------------------
-- Lexemes
-- ---------------------------------------------------------------------------

/-- Both lexers find the same opening quote. -/
theorem openingQuote (h : Beside M text x x' l l') (more : List Char) :
    Lexeme.Like M (l.openingQuote (more ++ x)) (l'.openingQuote (more ++ x')) := by
  unfold Lexer.openingQuote
  rw [StringText.opensMultiline_append_stop h.follows.stops,
    StringText.opensMultiline_append_stop h.follows.stops']
  exact ⟨rfl, rfl, h.angles⟩

/-- A part of a literal that ends within the text is found by both. -/
theorem stringPart (h : Beside M text x x' l l') {multiline : Bool} {o o' : Pos}
    (hy : l.stringPart multiline o = .ok y) (hlength : y.length ≤ text.length) :
    ∃ y', l'.stringPart multiline o' = .ok y' ∧ y.Like M y' := by
  have hx := h.follows.stops
  have hx' := h.follows.stops'
  unfold Lexer.stringPart at hy ⊢
  rw [h.rest, StringText.startsWithQuote_append_stop hx,
    StringText.startsInterpolation_append_stop hx] at hy
  rw [h.rest', StringText.startsWithQuote_append_stop hx',
    StringText.startsInterpolation_append_stop hx']
  split at hy
  · rename_i hquote
    obtain rfl := Except.ok.inj hy
    exact ⟨_, if_pos hquote, rfl, rfl, h.angles⟩
  rename_i hquote
  rw [if_neg hquote]
  split at hy
  · rename_i hopen
    obtain rfl := Except.ok.inj hy
    exact ⟨_, if_pos hopen, rfl, rfl, h.angles⟩
  rename_i hopen
  rw [if_neg hopen]
  simp only at hy ⊢
  split at hy
  · rename_i hclosed
    obtain rfl := Except.ok.inj hy
    have hwithin := StringText.closed_of_append hx hclosed hlength
    rw [StringText.extent_append_of_closed hx hwithin]
    rw [StringText.extent_append_of_closed hx' hwithin, if_pos hwithin]
    exact ⟨_, rfl, h.plain ..⟩
  · cases hy

/-- So is what starts with a number sign. -/
theorem poundLexeme (h : Beside M (c :: text) x x' l l') (hy : l.poundLexeme (text ++ x) = .ok y)
    (hlength : y.length ≤ 1 + text.length) :
    ∃ y', l'.poundLexeme (text ++ x') = .ok y' ∧ y.Like M y' := by
  have hx := h.follows.stops
  have hx' := h.follows.stops'
  have hhashes := (List.takeWhile_prefix (· == '#') (l := text)).length_le
  unfold Lexer.poundLexeme at hy ⊢
  rw [takeWhile_append_stop hx (forall_stoppers (by decide)), Word.leading_append_stop hx] at hy
  rw [takeWhile_append_stop hx' (forall_stoppers (by decide)), Word.leading_append_stop hx']
  simp only [List.drop_append_of_le_length hhashes] at hy ⊢
  have hdrop : (text.drop (text.takeWhile (· == '#')).length).length =
      text.length - (text.takeWhile (· == '#')).length := List.length_drop
  generalize text.drop (text.takeWhile (· == '#')).length = body at hy hdrop ⊢
  split at hy
  · rename_i body' hbody
    obtain ⟨body, rfl, rfl⟩ := eq_cons_of_append_stop hx (by decide) hbody
    split at hy
    · rename_i hclosed
      obtain rfl := Except.ok.inj hy
      have hwithin := RawString.closed_of_append hx hclosed (by
        rw [List.length_cons] at hdrop
        exact Nat.le_trans hlength (by omega))
      simp only [List.cons_append, RawString.extent_append_of_closed hx hwithin,
        RawString.extent_append_of_closed hx' hwithin, hwithin, if_true]
      exact ⟨_, rfl, h.plain ..⟩
    · cases hy
  · rename_i hbody
    -- what follows is no quote mark either
    split
    · rename_i heq
      obtain ⟨rest, rfl, -⟩ := eq_cons_of_append_stop hx' (by decide) heq
      exact (hbody _ rfl).elim
    · split at hy
      all_goals
        obtain rfl := Except.ok.inj hy
        exact ⟨_, rfl, h.plain ..⟩

/-- Both take the sign for an angle bracket, or neither does. -/
theorem angleBracket? (h : Beside M (c :: text) x x' l l') :
    Option.Rel (fun a a' => a'.1 = a.1 ∧ AngleMarks.Like M a.2 a'.2) (l.angleBracket? c (text ++ x))
      (l'.angleBracket? c (text ++ x')) := by
  have hhere : M.index l.index l'.index := h.index 0 (Nat.succ_pos _)
  unfold Lexer.angleBracket?
  rw [← h.angles.openers hhere, ← h.angles.closers hhere]
  split
  · split
    · exact .some ⟨rfl, h.angles⟩
    · unfold GenericArguments.ofText?
      rw [h.precedes.wordChar]
      split
      · have hmarks : Option.Rel (AngleMarks.Like M)
            (GenericArguments.marks? 0 '<' (l.index + 1) (text ++ x))
            (GenericArguments.marks? 0 '<' (l'.index + 1) (text ++ x')) := by
          refine h.follows.marks_append 0 '<' ?_ ?_ fun k hk => ?_
          · rw [List.length_cons, Nat.add_assoc, Nat.add_comm 1]
          · rw [List.length_cons, Nat.add_assoc, Nat.add_comm 1]
          · rw [Nat.add_assoc, Nat.add_assoc, Nat.add_comm 1 k]
            exact h.index (k + 1) (Nat.succ_lt_succ hk)
        generalize GenericArguments.marks? 0 '<' (l.index + 1) (text ++ x) = m at hmarks
        generalize GenericArguments.marks? 0 '<' (l'.index + 1) (text ++ x') = m' at hmarks
        cases hmarks with
        | none => exact .none
        | some hm => exact .some ⟨rfl, h.angles.append hm⟩
      · exact .none
  · split
    · exact .some ⟨rfl, h.angles⟩
    · exact .none

/-- Both lexers find the same operator or angle bracket. -/
theorem operatorLexeme (h : Beside M (c :: text) x x' l l') :
    Lexeme.Like M (l.operatorLexeme c (text ++ x)) (l'.operatorLexeme c (text ++ x')) := by
  have hangle := h.angleBracket?
  unfold Lexer.operatorLexeme
  generalize l.angleBracket? c (text ++ x) = a at hangle
  generalize l'.angleBracket? c (text ++ x') = a' at hangle
  cases hangle with
  | some hsame =>
    obtain ⟨hkind, hangles⟩ := hsame
    exact ⟨hkind, rfl, hangles⟩
  | none =>
    have hsame : Operator.extension (c == '.') l'.angles.closers (l'.index + 1) text =
        Operator.extension (c == '.') l.angles.closers (l.index + 1) text := by
      refine Operator.extension_congr fun k hk => ?_
      rw [Nat.add_assoc, Nat.add_assoc, Nat.add_comm 1 k]
      exact (h.angles.closers (h.index (k + 1) (Nat.succ_lt_succ hk))).symm
    have hlength := Operator.extension_le (c == '.') l.angles.closers (l.index + 1) text
    simp only [Operator.extension_append_stop h.follows.stops,
      Operator.extension_append_stop h.follows.stops', hsame, h.precedes.leftBound, h.rest, h.rest']
    split
    · exact h.plain ..
    generalize Operator.extension (c == '.') l.angles.closers (l.index + 1) text = length at hlength
    have hle : 1 + length ≤ (c :: text).length := by
      rw [List.length_cons]
      omega
    rw [List.take_append_of_le_length hle, List.take_append_of_le_length hle,
      List.drop_append_of_le_length hle, List.drop_append_of_le_length hle,
      Operator.isRightBound_append_stop h.follows.stops,
      Operator.isRightBound_append_stop h.follows.stops']
    exact h.plain ..

/-- Both lexers find the same word. -/
theorem wordLexeme (h : Beside M (c :: text) x x' l l') :
    Lexeme.Like M (l.wordLexeme c (text ++ x)) (l'.wordLexeme c (text ++ x')) := by
  have hkind : ∀ word rest, Word.kind l'.before.head? word (rest ++ x') =
      Word.kind l.before.head? word (rest ++ x) := by
    intro word rest
    unfold Word.kind
    rw [h.precedes.tick, h.precedes.dot,
      Word.actsAsKeyword_append_stop h.follows.stops h.follows.stops' (h.follows.keyword word)]
  unfold Lexer.wordLexeme
  simp only [takeWhile_append_stop h.follows.stops isWordChar_stopper,
    takeWhile_append_stop h.follows.stops' isWordChar_stopper,
    dropWhile_append_stop h.follows.stops isWordChar_stopper,
    dropWhile_append_stop h.follows.stops' isWordChar_stopper, hkind]
  exact h.plain ..

/-- Both lexers find the same closing parenthesis. -/
theorem closingParen (h : Beside M (')' :: text) x x' l l') :
    Lexeme.Like M l.closingParen l'.closingParen := by
  unfold Lexer.closingParen
  rw [h.paren rfl]
  split <;> exact ⟨rfl, rfl, h.angles⟩

/-- A lexeme of code that ends within the text is found by both. -/
theorem codeLexeme (h : Beside M (c :: text) x x' l l') (hy : l.codeLexeme = .ok y)
    (hlength : y.length ≤ 1 + text.length) : ∃ y', l'.codeLexeme = .ok y' ∧ y.Like M y' := by
  unfold Lexer.codeLexeme at hy ⊢
  rw [h.rest] at hy
  rw [h.rest']
  simp only [List.cons_append] at hy ⊢
  split at hy
  · obtain rfl := Except.ok.inj hy
    exact ⟨_, if_pos ‹_›, rfl, rfl, h.angles⟩
  rw [if_neg ‹_›]
  split at hy
  · rename_i hc
    obtain rfl := eq_of_beq hc
    obtain rfl := Except.ok.inj hy
    exact ⟨_, if_pos hc, h.closingParen⟩
  rw [if_neg ‹_›]
  split at hy
  · obtain rfl := Except.ok.inj hy
    exact ⟨_, if_pos ‹_›, h.openingQuote text⟩
  rw [if_neg ‹_›]
  split at hy
  · rw [if_pos ‹_›]
    exact h.poundLexeme hy hlength
  rw [if_neg ‹_›]
  split at hy
  · obtain rfl := Except.ok.inj hy
    rw [if_pos ‹_›, takeWhile_append_stop h.follows.stops isWordChar_stopper,
      takeWhile_append_stop h.follows.stops' isWordChar_stopper]
    exact ⟨_, rfl, h.plain ..⟩
  rw [if_neg ‹_›]
  split at hy
  · obtain rfl := Except.ok.inj hy
    exact ⟨_, rfl, h.plain ..⟩
  split at hy
  · obtain rfl := Except.ok.inj hy
    have hnumber : Number.ofText (c :: (text ++ x')) = Number.ofText (c :: (text ++ x)) :=
      (Number.ofText_append_stop h.follows.stops' (c :: text)).trans
        (Number.ofText_append_stop h.follows.stops (c :: text)).symm
    rw [if_pos ‹_›, hnumber]
    exact ⟨_, rfl, h.plain ..⟩
  rw [if_neg ‹_›]
  split at hy
  · obtain rfl := Except.ok.inj hy
    exact ⟨_, if_pos ‹_›, h.wordLexeme⟩
  rw [if_neg ‹_›]
  split at hy
  · obtain rfl := Except.ok.inj hy
    exact ⟨_, if_pos ‹_›, h.operatorLexeme⟩
  · obtain rfl := Except.ok.inj hy
    exact ⟨_, if_neg ‹_›, h.plain ..⟩

/-- Two lexers before the same text find the same lexeme, if it lies in the text. -/
theorem lexeme (h : Beside M text x x' l l') (hne : text ≠ []) (hy : l.lexeme = .ok y)
    (hlength : y.length ≤ text.length) : ∃ y', l'.lexeme = .ok y' ∧ y.Like M y' := by
  obtain ⟨c, text, rfl⟩ := List.exists_cons_of_ne_nil hne
  have hcontext := h.context
  generalize hc : l.context = context at hcontext
  generalize hc' : l'.context = context' at hcontext
  cases hcontext with
  | code hcode hcode' =>
    rw [lexeme_of_isCode (by rw [hc]; exact hcode)] at hy
    rw [lexeme_of_isCode (by rw [hc']; exact hcode')]
    rw [List.length_cons, Nat.add_comm] at hlength
    exact h.codeLexeme hy hlength
  | string =>
    unfold Lexer.lexeme at hy ⊢
    rw [hc] at hy
    rw [hc']
    exact h.stringPart hy hlength
  | interpolationStart =>
    unfold Lexer.lexeme at hy ⊢
    rw [hc] at hy
    rw [hc']
    obtain rfl := Except.ok.inj hy
    exact ⟨_, rfl, rfl, rfl, h.angles⟩

end Beside

/-- Lexemes of one kind leave contexts alike. -/
theorem contextsAlike_of_lexemes {l l' : Lexer} {y y' : Lexeme} (h : Context.AllLike l.contexts l'.contexts)
    (hy : l.lexeme = .ok y) (hy' : l'.lexeme = .ok y') (hkind : y'.kind = y.kind) :
    Context.AllLike y.contexts y'.contexts := by
  rw [contexts_of_lexeme hy, contexts_of_lexeme hy', hkind]
  exact h.behind _ _ _

end Lexer

end SwiftColoring
