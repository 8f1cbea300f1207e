import SwiftColoring.Lexeme.GenericArguments
import SwiftColoring.Proofs.Gap
import SwiftColoring.Proofs.Spelling

/-!
# The text of generic arguments

The search for generic arguments counts angle brackets and passes parentheses and square brackets as
it passes words. Here the text behind an opening bracket is followed with all brackets on a stack.
`GenericArguments.nests` asks what the search does not: that every bracket is closed by one of its own
sort, and that no nested less-than sign stands where an operator is under way and takes it. Where it
does, `Ahead` says what the search has marked, one character after the other, and which characters
tokens may take at once.

* `operatorUnderWay` — behind which characters an operator takes a less-than sign.
* `markTurn_of_marks?` — all that a search that succeeds can do at one character.
* `ahead_of_marks?` — what the search has marked, by the stack.
* `Ahead.skip` — characters that are no brackets leave the stack alone.
* `Ahead.gap`, `Number.take_ofText_bracketless`, `Ahead.extension` — neither trivia, nor a number, nor an
  operator takes a bracket.
-/

namespace SwiftColoring

namespace GenericArguments

/-- The characters that may be brackets. -/
def brackets : List Char := ['<', '>', '(', ')', '[', ']']

/-- What is said of all brackets is said of each. -/
theorem forall_mem_brackets {p : Char → Prop} :
    (∀ c ∈ brackets, p c) ↔ p '<' ∧ p '>' ∧ p '(' ∧ p ')' ∧ p '[' ∧ p ']' := by
  simp [brackets]

/-- Behind these characters of generic arguments, nearest first, an operator is under way, and takes
whatever operator character comes next. A question mark that is bound on its left is a token by
itself, and so is an angle bracket, but the sign of an arrow is none. -/
def operatorUnderWay : List Char → Bool
  | [] => false
  | c :: before =>
    if c == '?' then operatorUnderWay before || !Operator.isLeftBound before
    else if c == '>' then before.head? == some '-'
    else c == '.' || (isOperatorChar c && c != '<')

/-- The brackets that the text closes and opens, up to the one that closes the last of a stack of
open ones, nest: each is closed by one of its own sort, and no less-than sign among them stands where
an operator is under way. The characters since the first bracket are given nearest first; the sign of
an arrow is no bracket. -/
def nests : List Char → List Char → List Char → Bool
  | [], _, _ => true
  | _ :: _, _, [] => false
  | k :: ks, before, c :: rest =>
    if c == '<' then !operatorUnderWay before && nests ('<' :: k :: ks) (c :: before) rest
    else if c == '>' && before.head? != some '-' then k == '<' && nests ks (c :: before) rest
    else if c == '(' || c == '[' then nests (c :: k :: ks) (c :: before) rest
    else if c == ')' then k == '(' && nests ks (c :: before) rest
    else if c == ']' then k == '[' && nests ks (c :: before) rest
    else nests (k :: ks) (c :: before) rest

/-- The first bracket is closed by the second. -/
def pairs : Char → Char → Bool
  | '(', ')' | '[', ']' => true
  | _, _ => false

/-- A character that is no bracket and occurs in generic arguments, behind the characters `before`
and before the text `rest`. -/
def IsInert (before : List Char) (c : Char) (rest : List Char) : Prop :=
  c ∈ [' ', '\t', ',', '.', '?', '!', ':'] ∨ isWordChar c = true ∨
    (c = '-' ∧ rest.head? = some '>') ∨ (c = '>' ∧ before.head? = some '-')

/-- The text ahead closes a stack of open brackets, innermost first, and the marks are those of its
angle brackets. The characters before it are given nearest first, and their number is the place where
the text starts. -/
inductive Ahead : List Char → List Char → List Char → AngleMarks → Prop where
  /-- All is closed. -/
  | closed {before rest : List Char} : Ahead [] before rest .empty
  | angleOpen {k : Char} {ks before rest : List Char} {m : AngleMarks}
      (hoperator : operatorUnderWay before = false)
      (h : Ahead ('<' :: k :: ks) ('<' :: before) rest m) :
      Ahead (k :: ks) before ('<' :: rest) (m.withOpener before.length)
  | angleClose {ks before rest : List Char} {m : AngleMarks} (hminus : before.head? ≠ some '-')
      (h : Ahead ks ('>' :: before) rest m) :
      Ahead ('<' :: ks) before ('>' :: rest) (m.withCloser before.length)
  | bracketOpen {c k : Char} {ks before rest : List Char} {m : AngleMarks} (hc : c = '(' ∨ c = '[')
      (h : Ahead (c :: k :: ks) (c :: before) rest m) : Ahead (k :: ks) before (c :: rest) m
  | bracketClose {c k : Char} {ks before rest : List Char} {m : AngleMarks} (hpair : pairs k c = true)
      (h : Ahead ks (c :: before) rest m) : Ahead (k :: ks) before (c :: rest) m
  | inert {c k : Char} {ks before rest : List Char} {m : AngleMarks} (hc : IsInert before c rest)
      (h : Ahead (k :: ks) (c :: before) rest m) : Ahead (k :: ks) before (c :: rest) m

-- ---------------------------------------------------------------------------
-- Operators under way
-- ---------------------------------------------------------------------------

section UnderWay

variable {before outer rest : List Char} {c : Char}

/-- What binds an operator on its left is told by what stands behind the first bracket. -/
private theorem isLeftBound_append (h : before.getLast? = some '<') :
    Operator.isLeftBound (before ++ outer) = Operator.isLeftBound before := by
  match before, h with
  | [c], h =>
    obtain rfl := Option.some.inj h
    rfl
  | c :: d :: before, _ => rfl

/-- Whether an operator is under way is told by what stands behind the first bracket. -/
theorem operatorUnderWay_append (h : before.getLast? = some '<') :
    operatorUnderWay (before ++ outer) = operatorUnderWay before := by
  induction before with
  | nil => cases h
  | cons c before ih =>
    cases before with
    | nil =>
      obtain rfl := Option.some.inj h
      rfl
    | cons d before =>
      rw [List.getLast?_cons_cons] at h
      rw [List.cons_append, operatorUnderWay, operatorUnderWay, ih h, isLeftBound_append h]
      rfl

/-- An operator is under way behind each character that it takes, a question mark that starts it bound
on its left apart. -/
theorem operatorUnderWay_cons (hinert : IsInert before c rest)
    (hc : isOperatorChar c = true ∨ c = '.')
    (hquestion : c = '?' → operatorUnderWay before = true ∨ Operator.isLeftBound before = false) :
    operatorUnderWay (c :: before) = true := by
  rcases hinert with hmark | hword | ⟨rfl, -⟩ | ⟨rfl, hminus⟩
  · simp only [List.mem_cons, List.not_mem_nil, or_false] at hmark
    rcases hmark with rfl | rfl | rfl | rfl | rfl | rfl | rfl
    case inr.inr.inr.inr.inl =>
      show (operatorUnderWay before || !Operator.isLeftBound before) = true
      rw [Bool.or_eq_true, Bool.not_eq_true']
      exact hquestion rfl
    case inr.inr.inr.inl => rfl
    case inr.inr.inr.inr.inr.inl => rfl
    all_goals exact absurd hc (by decide)
  · -- no character of a word is one of operators
    have hwords : ∀ c ∈ operatorChars ++ ['.'], (!isWordChar c) = true :=
      List.all_eq_true.mp (by decide)
    have hmem : c ∈ operatorChars ++ ['.'] := by
      rw [List.mem_append, List.mem_singleton]
      exact hc.imp_left List.contains_iff_mem.mp
    have hnot := hwords c hmem
    rw [hword] at hnot
    cases hnot
  · rfl
  · show (before.head? == some '-') = true
    rw [hminus]
    rfl

end UnderWay

-- ---------------------------------------------------------------------------
-- What the search has marked
-- ---------------------------------------------------------------------------

/-- An angle bracket is at the bottom of the stack, and so many more are above it. -/
structure Stacked (nested : Nat) (ks : List Char) : Prop where
  count_eq : ks.count '<' = nested + 1
  bottom : ks.getLast? = some '<'

namespace Stacked

variable {nested : Nat} {ks : List Char} {c : Char}

theorem exists_cons (h : Stacked nested ks) : ∃ k ks', ks = k :: ks' := by
  refine List.exists_cons_of_ne_nil ?_
  rintro rfl
  cases h.bottom

theorem push (h : Stacked nested ks) : Stacked (nested + 1) ('<' :: ks) := by
  obtain ⟨k, ks', rfl⟩ := h.exists_cons
  exact ⟨by rw [List.count_cons_self, h.count_eq], by rw [List.getLast?_cons_cons, h.bottom]⟩

theorem pushOther (h : Stacked nested ks) (hc : c ≠ '<') : Stacked nested (c :: ks) := by
  obtain ⟨k, ks', rfl⟩ := h.exists_cons
  exact ⟨by rw [List.count_cons_of_ne hc, h.count_eq], by rw [List.getLast?_cons_cons, h.bottom]⟩

/-- What is left of a stack without its top has the same bottom. -/
private theorem of_count (h : (c :: ks).getLast? = some '<') (hcount : ks.count '<' = nested + 1) :
    Stacked nested ks := by
  refine ⟨hcount, ?_⟩
  cases ks with
  | nil => cases hcount
  | cons k ks => rwa [List.getLast?_cons_cons] at h

theorem pop (h : Stacked (nested + 1) ('<' :: ks)) : Stacked nested ks := by
  have hcount := h.count_eq
  rw [List.count_cons_self] at hcount
  exact of_count h.bottom (Nat.succ.inj hcount)

theorem popOther (h : Stacked nested (c :: ks)) (hc : c ≠ '<') : Stacked nested ks := by
  have hcount := h.count_eq
  rw [List.count_cons_of_ne hc] at hcount
  exact of_count h.bottom hcount

/-- The only angle bracket is at the bottom. -/
theorem eq_nil (h : Stacked 0 ('<' :: ks)) : ks = [] := by
  cases ks with
  | nil => rfl
  | cons k ks =>
    have hcount := h.count_eq
    have hbottom := h.bottom
    rw [List.count_cons_self] at hcount
    rw [List.getLast?_cons_cons] at hbottom
    exact absurd (Nat.succ.inj hcount)
      (Nat.ne_of_gt (List.count_pos_iff.mpr (List.mem_of_getLast? hbottom)))

end Stacked

/-- What a search that succeeds does at one character: it marks a bracket, or it passes the sign of an
arrow or a character of types. -/
inductive MarkTurn (previous : Char) (index : Nat) (rest : List Char) : Nat → Char → AngleMarks → Prop where
  | opens {nested : Nat} {m : AngleMarks} (h : marks? (nested + 1) '<' (index + 1) rest = some m) :
      MarkTurn previous index rest nested '<' (m.withOpener index)
  /-- The last bracket is closed, and the search is over. -/
  | ends (hminus : previous ≠ '-') : MarkTurn previous index rest 0 '>' ⟨[], [index]⟩
  | closes {nested : Nat} {m : AngleMarks} (hminus : previous ≠ '-')
      (h : marks? nested '>' (index + 1) rest = some m) :
      MarkTurn previous index rest (nested + 1) '>' (m.withCloser index)
  | arrow {nested : Nat} {m : AngleMarks} (hminus : previous = '-')
      (h : marks? nested '>' (index + 1) rest = some m) : MarkTurn previous index rest nested '>' m
  | passes {nested : Nat} {c : Char} {m : AngleMarks} (hopen : c ≠ '<') (hclose : c ≠ '>')
      (hallowed : (c = '-' ∧ rest.head? = some '>') ∨ c ∈ typeChars ∨ isWordChar c = true)
      (h : marks? nested c (index + 1) rest = some m) : MarkTurn previous index rest nested c m

/-- A search that succeeds takes one of these turns at every character. -/
theorem markTurn_of_marks? {nested index : Nat} {previous c : Char} {rest : List Char} {m : AngleMarks}
    (h : marks? nested previous index (c :: rest) = some m) :
    MarkTurn previous index rest nested c m := by
  unfold marks? at h
  split at h
  · rename_i hc
    obtain rfl := eq_of_beq hc
    obtain ⟨m, hm, rfl⟩ := Option.map_eq_some_iff.mp h
    exact .opens hm
  rename_i hopen
  split at h
  · rename_i hc
    obtain ⟨hc, hminus⟩ := Bool.and_eq_true_iff.mp hc
    obtain rfl := eq_of_beq hc
    split at h
    · split at h
      · obtain rfl := Option.some.inj h
        exact .ends (bne_iff_ne.mp hminus)
      · cases h
    · obtain ⟨m, hm, rfl⟩ := Option.map_eq_some_iff.mp h
      exact .closes (bne_iff_ne.mp hminus) hm
  rename_i hclose
  split at h
  · rename_i hallowed
    by_cases hc : c = '>'
    · subst hc
      exact .arrow (by simpa using hclose) h
    · simp only [Bool.or_eq_true, Bool.and_eq_true, beq_iff_eq, hc, false_or, or_assoc,
        List.contains_iff_mem] at hallowed
      exact .passes (by simpa using hopen) hc hallowed h
  · cases h

section Nests

variable {k c : Char} {ks before rest : List Char}

/-- A bracket that is closed is the innermost open one. -/
theorem nests_angleClose (h : nests (k :: ks) before ('>' :: rest) = true)
    (hminus : before.head? ≠ some '-') : k = '<' ∧ nests ks ('>' :: before) rest = true := by
  rw [nests, if_neg (by decide), if_pos (by simpa using hminus), Bool.and_eq_true, beq_iff_eq] at h
  exact h

/-- The sign of an arrow leaves the stack alone. -/
theorem nests_arrow (h : nests (k :: ks) before ('>' :: rest) = true)
    (hminus : before.head? = some '-') : nests (k :: ks) ('>' :: before) rest = true := by
  rw [nests, if_neg (by decide), if_neg (by simp [hminus]), if_neg (by decide), if_neg (by decide),
    if_neg (by decide)] at h
  exact h

/-- What a character does to the stack that is no angle bracket. -/
theorem nests_other (h : nests (k :: ks) before (c :: rest) = true) (hopen : c ≠ '<') (hclose : c ≠ '>') :
    ((c = '(' ∨ c = '[') ∧ nests (c :: k :: ks) (c :: before) rest = true) ∨
      ((pairs k c = true ∧ k ≠ '<') ∧ nests ks (c :: before) rest = true) ∨
      (c ∉ brackets ∧ nests (k :: ks) (c :: before) rest = true) := by
  rw [nests, if_neg (by simpa using hopen), if_neg (by simp [hclose])] at h
  split at h
  · rename_i hc
    exact .inl ⟨by simpa using hc, h⟩
  rename_i hbracketOpen
  split at h
  · rename_i hc
    obtain rfl := eq_of_beq hc
    obtain ⟨hk, h⟩ := Bool.and_eq_true_iff.mp h
    obtain rfl := eq_of_beq hk
    exact .inr (.inl ⟨⟨rfl, by decide⟩, h⟩)
  rename_i hparen
  split at h
  · rename_i hc
    obtain rfl := eq_of_beq hc
    obtain ⟨hk, h⟩ := Bool.and_eq_true_iff.mp h
    obtain rfl := eq_of_beq hk
    exact .inr (.inl ⟨⟨rfl, by decide⟩, h⟩)
  rename_i hbracket
  refine .inr (.inr ⟨?_, h⟩)
  simp only [Bool.or_eq_true, beq_iff_eq, not_or] at hbracketOpen hparen hbracket
  simp [brackets, hopen, hclose, hbracketOpen, hparen, hbracket]

end Nests

/-- What the search has marked, by the stack of open brackets. -/
theorem ahead_of_marks? {nested index : Nat} {previous : Char} {text ks inside outer : List Char}
    {m : AngleMarks} (hmarks : marks? nested previous index text = some m)
    (hnests : nests ks inside text = true) (hks : Stacked nested ks)
    (hprevious : inside.head? = some previous) (hfirst : inside.getLast? = some '<')
    (hindex : (inside ++ outer).length = index) : Ahead ks (inside ++ outer) text m := by
  induction text generalizing nested previous index ks inside m with
  | nil => cases hmarks
  | cons c rest ih =>
    obtain ⟨k, ks, rfl⟩ := hks.exists_cons
    have hbehind : (c :: inside ++ outer).length = index + 1 := by
      rw [List.cons_append, List.length_cons, hindex]
    have hfirst' : (c :: inside).getLast? = some '<' := by
      rw [List.getLast?_cons, hfirst]
      rfl
    have hhead : (inside ++ outer).head? = some previous := by
      rw [List.head?_append, hprevious]
      rfl
    cases markTurn_of_marks? hmarks with
    | opens hm =>
      obtain ⟨hoperator, habove⟩ := Bool.and_eq_true_iff.mp hnests
      rw [Bool.not_eq_true', ← operatorUnderWay_append hfirst] at hoperator
      rw [← hindex]
      exact .angleOpen hoperator (ih hm habove hks.push rfl hfirst' hbehind)
    | ends hminus =>
      obtain ⟨rfl, -⟩ := nests_angleClose hnests (by simpa [hprevious] using hminus)
      obtain rfl := hks.eq_nil
      rw [← hindex]
      exact .angleClose (by simpa [hhead] using hminus) .closed
    | closes hminus hm =>
      obtain ⟨rfl, hbelow⟩ := nests_angleClose hnests (by simpa [hprevious] using hminus)
      rw [← hindex]
      exact .angleClose (by simpa [hhead] using hminus) (ih hm hbelow hks.pop rfl hfirst' hbehind)
    | arrow hminus hm =>
      have hsame := nests_arrow hnests (by rw [hprevious, hminus])
      exact .inert (.inr (.inr (.inr ⟨rfl, by rw [hhead, hminus]⟩)))
        (ih hm hsame hks rfl hfirst' hbehind)
    | passes hopen hclose hallowed hm =>
      rcases nests_other hnests hopen hclose with ⟨hc, habove⟩ | ⟨⟨hpairs, hk⟩, hbelow⟩ | ⟨hc, hsame⟩
      · exact .bracketOpen hc (ih hm habove (hks.pushOther hopen) rfl hfirst' hbehind)
      · exact .bracketClose hpairs (ih hm hbelow (hks.popOther hk) rfl hfirst' hbehind)
      · refine .inert ?_ (ih hm hsame hks rfl hfirst' hbehind)
        rcases hallowed with hminus | htype | hword
        · exact .inr (.inr (.inl hminus))
        · refine .inl ?_
          simp only [brackets, List.mem_cons, List.not_mem_nil, or_false, not_or] at hc
          simpa [typeChars, hc] using htype
        · exact .inr (.inl hword)

-- ---------------------------------------------------------------------------
-- Characters taken at once
-- ---------------------------------------------------------------------------

namespace Ahead

variable {k : Char} {ks before rest : List Char} {m : AngleMarks}

/-- The marks are those of places ahead. -/
theorem le_of_mem {ks : List Char} (h : Ahead ks before rest m) {i : Nat}
    (hi : i ∈ m.openers ∨ i ∈ m.closers) : before.length ≤ i := by
  induction h with
  | closed => simp [AngleMarks.empty] at hi
  | angleOpen _ _ ih =>
    rcases hi with hi | hi
    · rcases List.mem_cons.mp hi with rfl | hi
      · exact Nat.le_refl _
      · exact Nat.le_of_succ_le (ih (.inl hi))
    · exact Nat.le_of_succ_le (ih (.inr hi))
  | angleClose _ _ ih =>
    rcases hi with hi | hi
    · exact Nat.le_of_succ_le (ih (.inl hi))
    · rcases List.mem_cons.mp hi with rfl | hi
      · exact Nat.le_refl _
      · exact Nat.le_of_succ_le (ih (.inr hi))
  | bracketOpen _ _ ih | bracketClose _ _ ih | inert _ _ ih => exact Nat.le_of_succ_le (ih hi)

/-- Characters that are no brackets leave the stack alone. -/
theorem skip {s : List Char} (h : Ahead (k :: ks) before (s ++ rest) m) (hs : ∀ c ∈ s, c ∉ brackets) :
    Ahead (k :: ks) (s.reverse ++ before) rest m := by
  induction s generalizing before with
  | nil => exact h
  | cons c s ih =>
    have hc := hs c (List.mem_cons_self ..)
    have hbehind : Ahead (k :: ks) (c :: before) (s ++ rest) m := by
      rw [List.cons_append] at h
      cases h with
      | inert _ h => exact h
      | angleOpen | angleClose => simp [brackets] at hc
      | bracketOpen hbracket => rcases hbracket with rfl | rfl <;> simp [brackets] at hc
      | bracketClose hpair =>
        unfold pairs at hpair
        split at hpair <;> simp [brackets] at hc hpair
    rw [List.reverse_cons, List.append_assoc]
    exact ih hbehind fun d hd => hs d (List.mem_cons_of_mem _ hd)

theorem take {n : Nat} (h : Ahead (k :: ks) before rest m) (hs : ∀ c ∈ rest.take n, c ∉ brackets) :
    Ahead (k :: ks) ((rest.take n).reverse ++ before) (rest.drop n) m :=
  skip (by rwa [List.take_append_drop]) hs

/-- The next character is a bracket, or may stand among brackets. -/
theorem head {c : Char} (h : Ahead (k :: ks) before (c :: rest) m) :
    c ∈ brackets ∨ IsInert before c rest := by
  cases h with
  | angleOpen | angleClose => exact .inl (by decide)
  | bracketOpen hc => rcases hc with rfl | rfl <;> exact .inl (by decide)
  | bracketClose hpair =>
    unfold pairs at hpair
    split at hpair
    · exact .inl (by decide)
    · exact .inl (by decide)
    · cases hpair
  | inert hc => exact .inr hc

/-- No comment and no number sign is among generic arguments. -/
private theorem head_ne {c : Char} (h : Ahead (k :: ks) before (c :: rest) m)
    (hc : c ∉ brackets ++ [' ', '\t', ',', '.', '?', '!', ':', '-']) (hword : isWordChar c = false) :
    False := by
  rw [List.mem_append, not_or] at hc
  rcases h.head with hbracket | hinert | hword' | ⟨rfl, -⟩ | ⟨rfl, -⟩
  · exact hc.1 hbracket
  · exact hc.2 (List.mem_append_left ['-'] hinert)
  · rw [hword] at hword'
    cases hword'
  · exact hc.2 (by decide)
  · exact hc.1 (by decide)

/-- Trivia holds no brackets. -/
theorem piece {trailing atStart : Bool} {p : Piece} (h : Ahead (k :: ks) before rest m)
    (hp : GapStart.ofText trailing atStart rest = .piece p) : ∀ c ∈ p.text, c ∉ brackets := by
  intro c hc
  unfold GapStart.ofText at hp
  split at hp
  · rename_i u hu
    split at hp
    · cases hp
    · obtain rfl := GapStart.piece.inj hp
      have hunit : ∀ c ∈ brackets, c ∉ u.text :=
        forall_mem_brackets.mpr (by cases u <;> decide)
      obtain ⟨text, htext, hc⟩ := List.mem_flatten.mp hc
      rw [List.eq_of_mem_replicate htext] at hc
      exact fun hbracket => hunit c hbracket hc
  · split at hp
    · exact (h.head_ne (by decide) (by decide)).elim
    · exact (h.head_ne (by decide) (by decide)).elim
    · exact (h.head_ne (by decide) (by decide)).elim
    · split at hp
      · obtain rfl := GapStart.piece.inj hp
        intro hbracket
        have hgarbage : isGarbage c = true := List.all_eq_true.mp List.all_takeWhile c hc
        have hnot : ∀ c ∈ brackets, isGarbage c = false := forall_mem_brackets.mpr (by decide)
        rw [hnot c hbracket] at hgarbage
        cases hgarbage
      · cases hp
    · cases hp

theorem gap {trailing atStart : Bool} (h : Ahead (k :: ks) before rest m) :
    Ahead (k :: ks) ((rest.take (Gap.ofText trailing atStart rest).length).reverse ++ before)
      (rest.drop (Gap.ofText trailing atStart rest).length) m := by
  fun_induction Gap.ofText trailing atStart rest generalizing before with
  | case1 => exact h
  | case2 => exact h
  | case3 atStart rest p hp gap =>
    rename_i ih
    have htake : rest.take p.text.length = p.text :=
      (List.prefix_iff_eq_take.mp (GapStart.ofText_eq_piece hp).2).symm
    have hlength : ∀ gap : Gap, (⟨p :: gap.pieces, gap.openComment⟩ : Gap).length =
        p.text.length + gap.length := by simp [Gap.length]
    have hpiece : ∀ c ∈ rest.take p.text.length, c ∉ brackets := by
      rw [htake]
      exact h.piece hp
    rw [hlength, List.take_add, List.reverse_append, List.append_assoc, ← List.drop_drop]
    exact ih (h.take hpiece)

/-- An operator that has begun takes no bracket: a less-than sign does not stand behind it, and a
closing bracket is marked. -/
theorem extension {closers : List Nat} (dotted : Bool) (h : Ahead (k :: ks) before rest m)
    (hbegun : operatorUnderWay before = true)
    (hclosers : ∀ i, before.length ≤ i → (i ∈ closers ↔ i ∈ m.closers)) :
    Ahead (k :: ks)
      ((rest.take (Operator.extension dotted closers before.length rest)).reverse ++ before)
      (rest.drop (Operator.extension dotted closers before.length rest)) m := by
  induction rest generalizing before with
  | nil => exact h
  | cons c rest ih =>
    unfold Operator.extension
    split
    · exact h
    rename_i hoperator
    split
    · exact h
    split
    · exact h
    rename_i hclosing
    have hc : isOperatorChar c = true ∨ c = '.' := by
      simp only [Bool.not_eq_true', Bool.not_eq_false, Bool.or_eq_true, Bool.and_eq_true,
        beq_iff_eq] at hoperator
      exact hoperator.imp_right And.right
    have hbehind : Ahead (k :: ks) (c :: before) rest m ∧ operatorUnderWay (c :: before) = true := by
      cases h with
      | inert hinert h => exact ⟨h, operatorUnderWay_cons hinert hc fun _ => .inl hbegun⟩
      | angleOpen hnot =>
        rw [hnot] at hbegun
        cases hbegun
      | angleClose =>
        have hmarked := (hclosers before.length (Nat.le_refl _)).mpr (List.mem_cons_self ..)
        exact absurd (List.contains_iff_mem.mpr hmarked) (by simpa using hclosing)
      | bracketOpen hbracket => rcases hbracket with rfl | rfl <;> exact absurd hc (by decide)
      | bracketClose hpair =>
        unfold pairs at hpair
        split at hpair
        · exact absurd hc (by decide)
        · exact absurd hc (by decide)
        · cases hpair
    rw [Nat.add_comm, List.take_succ_cons, List.drop_succ_cons, List.reverse_cons, List.append_assoc]
    exact ih hbehind.1 hbehind.2 fun i hi => hclosers i (Nat.le_of_succ_le hi)

end Ahead

end GenericArguments

/-- A number holds no brackets. -/
theorem Number.take_ofText_bracketless (text : List Char) :
    ∀ c ∈ text.take (ofText text).2, c ∉ GenericArguments.brackets := by
  have hnot : ∀ c ∈ GenericArguments.brackets, isNumberChar c = false :=
    GenericArguments.forall_mem_brackets.mpr (by decide)
  intro c hc hbracket
  have hchar := isNumberChar_of_mem text c hc
  rw [hnot c hbracket] at hchar
  cases hchar

end SwiftColoring
