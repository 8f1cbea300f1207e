import SwiftColoring.Proofs.Gap
import SwiftColoring.Proofs.Reach

/-!
# What ends a lexeme

A blank, a line feed and a closing parenthesis are word, digit and operator character to nothing, open
no comment and no literal, and close none. So each of them ends what stands before it as the end of a
source would: what is read of a text is read of it when one of them follows. Only a literal that the
text leaves open reads on past it.

* `Number.ofText_append_stop`, `Word.leading_append_stop`, `Operator.extension_append_stop`,
  `Operator.isRightBound_append_stop` — runs of characters, and what is asked about their neighbours.
* `StringText.extent_append_stop`, `RawString.extent_append_stop` — literals.
-/

namespace SwiftColoring

/-- Characters that end every lexeme outside of literals. -/
def stoppers : List Char := [' ', '\t', '\n', ')']

/-- Nothing, or a text that starts with such a character. -/
def Stops (x : List Char) : Prop := ∀ c ∈ x.head?, c ∈ stoppers

/-- The end of a source stops every scan. -/
theorem Stops.nil : Stops [] := by
  simp [Stops]

/-- So does a text that starts with a stopper. -/
theorem Stops.cons {c : Char} (hc : c ∈ stoppers) (more : List Char) : Stops (c :: more) := by
  intro d hd
  rwa [← Option.some.inj hd]

theorem Stops.head_mem {c : Char} {more : List Char} (h : Stops (c :: more)) : c ∈ stoppers := h c rfl

theorem mem_stoppers {c : Char} : c ∈ stoppers ↔ c = ' ' ∨ c = '\t' ∨ c = '\n' ∨ c = ')' := by
  simp [stoppers]

/-- What is to hold of all of these characters is checked one by one. -/
theorem forall_stoppers {p : Char → Prop} (h : p ' ' ∧ p '\t' ∧ p '\n' ∧ p ')') :
    ∀ c ∈ stoppers, p c := by
  intro c hc
  obtain ⟨hspace, htab, hbreak, hparen⟩ := h
  rcases mem_stoppers.mp hc with rfl | rfl | rfl | rfl
  all_goals assumption

theorem isWordChar_stopper : ∀ c ∈ stoppers, isWordChar c = false := forall_stoppers (by decide)

theorem isGarbage_stopper : ∀ c ∈ stoppers, isGarbage c = false := forall_stoppers (by decide)

variable {x : List Char}

-- ---------------------------------------------------------------------------
-- Runs and prefixes
-- ---------------------------------------------------------------------------

/-- A run ends before a text whose first character is of another class. -/
theorem takeWhile_append_of_head {p : Char → Bool} (hp : ∀ c ∈ x.head?, p c = false)
    (text : List Char) : (text ++ x).takeWhile p = text.takeWhile p := by
  induction text with
  | nil =>
    cases x with
    | nil => rfl
    | cons c more => rw [List.nil_append, List.takeWhile_cons, hp c rfl, List.takeWhile_nil]; rfl
  | cons c text ih => rw [List.cons_append, List.takeWhile_cons, List.takeWhile_cons, ih]

/-- What is behind the run is then behind it with the text. -/
theorem dropWhile_append_of_head {p : Char → Bool} (hp : ∀ c ∈ x.head?, p c = false)
    (text : List Char) : (text ++ x).dropWhile p = text.dropWhile p ++ x := by
  induction text with
  | nil =>
    cases x with
    | nil => rfl
    | cons c more => rw [List.nil_append, List.dropWhile_cons, hp c rfl, List.dropWhile_nil]; rfl
  | cons c text ih =>
    rw [List.cons_append, List.dropWhile_cons, List.dropWhile_cons, ih]
    split <;> rfl

/-- A run of a class that has no stopper ends before a text that stops. -/
theorem takeWhile_append_stop (hx : Stops x) {p : Char → Bool} (hp : ∀ c ∈ stoppers, p c = false)
    (text : List Char) : (text ++ x).takeWhile p = text.takeWhile p :=
  takeWhile_append_of_head (fun c hc => hp c (hx c hc)) text

/-- What is behind the run is then behind it with that text. -/
theorem dropWhile_append_stop (hx : Stops x) {p : Char → Bool} (hp : ∀ c ∈ stoppers, p c = false)
    (text : List Char) : (text ++ x).dropWhile p = text.dropWhile p ++ x :=
  dropWhile_append_of_head (fun c hc => hp c (hx c hc)) text

/-- A mark without stoppers does not reach into a text that stops. -/
theorem isPrefixOf_append_stop (hx : Stops x) {mark : List Char} (hmark : ∀ c ∈ stoppers, c ∉ mark)
    (text : List Char) : mark.isPrefixOf (text ++ x) = mark.isPrefixOf text := by
  induction mark generalizing text with
  | nil => simp
  | cons d mark ih =>
    have hmark' : ∀ c ∈ stoppers, c ∉ mark := fun c hc hmem => hmark c hc (List.mem_cons_of_mem _ hmem)
    cases text with
    | nil =>
      cases x with
      | nil => rfl
      | cons c more =>
        have hd : (d == c) = false :=
          beq_eq_false_iff_ne.mpr fun h => hmark c hx.head_mem (h ▸ List.mem_cons_self ..)
        show (d == c && mark.isPrefixOf more) = false
        rw [hd, Bool.false_and]
    | cons c text => rw [List.cons_append, List.isPrefixOf, List.isPrefixOf, ih hmark' text]

/-- What starts a text with a stop behind it, and is no stop, starts the text. -/
theorem eq_cons_of_append_stop (hx : Stops x) {text rest : List Char} {d : Char} (hd : d ∉ stoppers)
    (h : text ++ x = d :: rest) : ∃ rest', text = d :: rest' ∧ rest = rest' ++ x := by
  cases text with
  | nil =>
    rw [List.nil_append] at h
    rw [h] at hx
    exact absurd hx.head_mem hd
  | cons c text =>
    obtain ⟨rfl, rfl⟩ := List.cons.inj h
    exact ⟨text, rfl, rfl⟩

-- ---------------------------------------------------------------------------
-- Trivia
-- ---------------------------------------------------------------------------

/-- Whether a comment is documentation shows in the two characters behind its marker. -/
theorem Comment.isDoc_append_stop (hx : Stops x) (mark a b : Char) (hmark : mark ∉ stoppers)
    (text : List Char) : isDoc mark (a :: b :: (text ++ x)) = isDoc mark (a :: b :: text) := by
  match text with
  | [] =>
    cases x with
    | nil => rfl
    | cons c more =>
      have hc : (c == mark) = false := beq_eq_false_iff_ne.mpr fun h => hmark (h ▸ hx.head_mem)
      simp [isDoc, hc]
  | [third] =>
    cases x with
    | nil => rfl
    | cons c more =>
      have hc : c ≠ '/' := by
        rintro rfl
        exact absurd hx.head_mem (by decide)
      simp [isDoc, bne, hc]
  | third :: fourth :: rest => rfl

/-- The marker that closes a comment is found whatever follows it. -/
theorem Comment.closing?_append {nested n : Nat} {text : List Char}
    (h : closing? nested text = some n) (more : List Char) :
    closing? nested (text ++ more) = some n := by
  fun_induction closing? nested text generalizing n with
  | case1 => cases h
  | case2 nested rest ih =>
    obtain ⟨m, hm, rfl⟩ := Option.map_eq_some_iff.mp h
    simp only [List.cons_append, closing?, ih hm, Option.map_some]
  | case3 rest => simpa only [List.cons_append, closing?] using h
  | case4 rest nested ih =>
    obtain ⟨m, hm, rfl⟩ := Option.map_eq_some_iff.mp h
    simp only [List.cons_append, closing?, ih hm, Option.map_some]
  | case5 nested c rest hopens hcloses ih =>
    obtain ⟨m, hm, rfl⟩ := Option.map_eq_some_iff.mp h
    -- the next character is there, or nothing could close the comment
    cases rest with
    | nil => cases hm
    | cons d rest =>
      rw [List.cons_append, closing?, ih hm, Option.map_some]
      · intro rest' hc hrest
        obtain ⟨rfl, -⟩ := List.cons.inj hrest
        exact hopens rest hc rfl
      · intro rest' hc hrest
        obtain ⟨rfl, -⟩ := List.cons.inj hrest
        exact hcloses rest hc rfl

/-- It lies in the text. -/
theorem Comment.closing?_le {nested n : Nat} {text : List Char} (h : closing? nested text = some n) :
    n ≤ text.length := by
  fun_induction closing? nested text generalizing n with
  | case1 => cases h
  | case3 rest =>
    obtain rfl := Option.some.inj h
    exact Nat.le_add_left ..
  | case2 _ _ ih | case4 _ _ ih | case5 _ _ _ _ _ ih =>
    obtain ⟨m, hm, rfl⟩ := Option.map_eq_some_iff.mp h
    have hle := ih hm
    simp only [List.length_cons]
    omega

/-- It has two characters at least. -/
theorem Comment.two_le_closing? {nested n : Nat} {text : List Char} (h : closing? nested text = some n) :
    2 ≤ n := by
  fun_induction closing? nested text generalizing n with
  | case1 => cases h
  | case3 rest =>
    obtain rfl := Option.some.inj h
    exact Nat.le_refl 2
  | case2 _ _ ih | case4 _ _ ih | case5 _ _ _ _ _ ih =>
    obtain ⟨m, hm, rfl⟩ := Option.map_eq_some_iff.mp h
    have hle := ih hm
    omega

/-- A block comment ends with its marker. -/
theorem Comment.exists_take_of_closing? {nested n : Nat} {text : List Char}
    (h : closing? nested text = some n) : ∃ inner, text.take n = inner ++ ['*', '/'] := by
  fun_induction closing? nested text generalizing n with
  | case1 => cases h
  | case2 nested rest ih =>
    obtain ⟨m, hm, rfl⟩ := Option.map_eq_some_iff.mp h
    obtain ⟨inner, hinner⟩ := ih hm
    exact ⟨'/' :: '*' :: inner, by simp only [List.take_succ_cons, hinner, List.cons_append]⟩
  | case4 rest nested ih =>
    obtain ⟨m, hm, rfl⟩ := Option.map_eq_some_iff.mp h
    obtain ⟨inner, hinner⟩ := ih hm
    exact ⟨'*' :: '/' :: inner, by simp only [List.take_succ_cons, hinner, List.cons_append]⟩
  | case5 nested c rest _ _ ih =>
    obtain ⟨m, hm, rfl⟩ := Option.map_eq_some_iff.mp h
    obtain ⟨inner, hinner⟩ := ih hm
    exact ⟨c :: inner, by simp only [List.take_succ_cons, hinner, List.cons_append]⟩
  | case3 rest =>
    cases h
    exact ⟨[], rfl⟩

/-- A comment that ends within the text at hand does not depend on what follows. -/
theorem Comment.closing?_of_append {nested n : Nat} {text more : List Char}
    (h : closing? nested (text ++ more) = some n) (hle : n ≤ text.length) :
    closing? nested text = some n := by
  fun_induction closing? nested text generalizing n with
  | case1 nested =>
    have hpos := two_le_closing? h
    rw [List.length_nil] at hle
    omega
  | case2 nested rest ih =>
    simp only [List.cons_append, closing?] at h
    obtain ⟨m, hm, rfl⟩ := Option.map_eq_some_iff.mp h
    rw [ih hm (Nat.le_of_add_le_add_right hle), Option.map_some]
  | case3 rest => simpa only [List.cons_append, closing?] using h
  | case4 rest nested ih =>
    simp only [List.cons_append, closing?] at h
    obtain ⟨m, hm, rfl⟩ := Option.map_eq_some_iff.mp h
    rw [ih hm (Nat.le_of_add_le_add_right hle), Option.map_some]
  | case5 nested c rest hopens hcloses ih =>
    have hpos := two_le_closing? h
    cases rest with
    | nil =>
      rw [List.length_singleton] at hle
      omega
    | cons d rest =>
      rw [List.cons_append, closing?] at h
      · obtain ⟨m, hm, rfl⟩ := Option.map_eq_some_iff.mp h
        rw [ih hm (Nat.le_of_add_le_add_right hle), Option.map_some]
      · intro rest' hc hrest
        obtain ⟨rfl, -⟩ := List.cons.inj hrest
        exact hopens rest hc rfl
      · intro rest' hc hrest
        obtain ⟨rfl, -⟩ := List.cons.inj hrest
        exact hcloses rest hc rfl

namespace RunUnit

/-- What unit a text starts with shows in its first two characters, of which the second counts only
behind a carriage return. -/
theorem ofText?_append {text : List Char} (hne : text ≠ [])
    (hreturn : text.getLast? = some '\r' → x.head? ≠ some '\n') : ofText? (text ++ x) = ofText? text := by
  match text with
  | [] => exact absurd rfl hne
  | [c] =>
    rw [List.singleton_append]
    unfold ofText?
    split
    case h_6 heq =>
      -- the line feed would have to come from behind the text
      obtain ⟨rfl, rfl⟩ := List.cons.inj heq
      exact absurd rfl (hreturn rfl)
    all_goals simp_all
  | c :: d :: rest =>
    rw [List.cons_append, List.cons_append]
    unfold ofText?
    split
    case h_7 hnewline heq =>
      obtain ⟨rfl, rfl⟩ := List.cons.inj heq
      split <;> simp_all
    all_goals simp_all

/-- A run is not longer for what follows the text, if that does not go on with it. -/
theorem count_append (u : RunUnit) {text : List Char}
    (hreturn : text.getLast? = some '\r' → x.head? ≠ some '\n')
    (hend : ofText? x = some u → u.count text * u.text.length < text.length) :
    u.count (text ++ x) = u.count text := by
  have hpos := List.length_pos_iff.mpr u.text_ne_nil
  fun_induction count u text with
  | case1 text h ih =>
    have hle := (text_isPrefix_of_ofText? h).length_le
    have hne : text ≠ [] := by
      rintro rfl
      cases h
    rw [count, if_pos (by rw [ofText?_append hne hreturn, h]), List.drop_append_of_le_length hle, ih]
    · intro hlast
      refine hreturn ?_
      rw [← List.take_append_drop u.text.length text, List.getLast?_append, hlast]
      rfl
    · intro hx
      have hlt := hend hx
      rw [List.length_drop]
      rw [Nat.succ_mul] at hlt
      omega
  | case2 text h =>
    rw [count, if_neg]
    intro hu
    by_cases hne : text = []
    · rw [hne] at hend hu
      exact absurd (hend hu) (by simp)
    · rw [ofText?_append hne hreturn] at hu
      exact h hu

end RunUnit

/-- What follows the text does not go on with the trivia that the text starts with. -/
structure EndsTrivia (atStart : Bool) (text x : List Char) : Prop where
  /-- No line feed follows that would belong to a carriage return. -/
  feed : text.getLast? = some '\r' → x.head? ≠ some '\n'
  run : ∀ u, RunUnit.ofText? text = some u → RunUnit.ofText? x = some u →
    u.count text * u.text.length < text.length
  line : ['/', '/'] <+: text ∨ atStart = true ∧ ['#', '!'] <+: text →
    (text ++ x).takeWhile (fun c => !isLineBreak c) = text.takeWhile fun c => !isLineBreak c
  block : ∀ rest, text = '/' :: '*' :: rest →
    Comment.closing? 0 (rest ++ x) = Comment.closing? 0 rest

namespace GapStart

/-- What starts with the marker of a block comment is one if it ends. -/
theorem ofText_of_block {trailing atStart : Bool} (rest : List Char) :
    ofText trailing atStart ('/' :: '*' :: rest) =
      match (Comment.closing? 0 rest).map (· + 2) with
      | some n => .piece (.blockComment (Comment.isDoc '*' ('/' :: '*' :: rest))
          (('/' :: '*' :: rest).take n))
      | none => .openComment := rfl

/-- Where no run, no comment and no script starts, only garbage can. -/
private theorem ofText_of_other {trailing atStart : Bool} {c : Char} {rest : List Char}
    (hunit : RunUnit.ofText? (c :: rest) = none) (hline : ¬ ['/', '/'] <+: c :: rest)
    (hblock : ¬ ['/', '*'] <+: c :: rest) (hscript : ¬ ['#', '!'] <+: c :: rest) :
    ofText trailing atStart (c :: rest) =
      if isGarbage c then .piece (.garbage ((c :: rest).takeWhile isGarbage)) else .nothing := by
  unfold ofText
  rw [hunit]
  simp only
  split
  · rename_i heq
    exact absurd ⟨_, heq.symm⟩ hline
  · rename_i heq
    exact absurd ⟨_, heq.symm⟩ hblock
  · rename_i heq
    exact absurd ⟨_, heq.symm⟩ hscript
  · rename_i heq
    obtain ⟨rfl, rfl⟩ := List.cons.inj heq
    rfl
  · rename_i heq
    cases heq

section Marks

variable {trailing atStart : Bool} {rest : List Char}

/-- A line comment is the same before a text that ends it. -/
private theorem ofText_line_append (hx : Stops x) (h : EndsTrivia atStart ('/' :: '/' :: rest) x) :
    ofText trailing atStart ('/' :: '/' :: rest ++ x) = ofText trailing atStart ('/' :: '/' :: rest) := by
  have htake := h.line (.inl ⟨rest, rfl⟩)
  have hdoc := Comment.isDoc_append_stop hx '/' '/' '/' (by decide) rest
  show GapStart.piece (.lineComment (Comment.isDoc '/' ('/' :: '/' :: (rest ++ x)))
    (('/' :: '/' :: rest ++ x).takeWhile fun c => !isLineBreak c)) = _
  rw [hdoc, htake]
  rfl

/-- So is a block comment that ends. -/
private theorem ofText_block_append (hx : Stops x) (h : EndsTrivia atStart ('/' :: '*' :: rest) x) :
    ofText trailing atStart ('/' :: '*' :: rest ++ x) = ofText trailing atStart ('/' :: '*' :: rest) := by
  have hdoc := Comment.isDoc_append_stop hx '*' '/' '*' (by decide) rest
  have hclosing := h.block rest rfl
  rw [List.cons_append, List.cons_append, ofText_of_block, ofText_of_block, hclosing, hdoc]
  cases hlength : Comment.closing? 0 rest with
  | none => rfl
  | some n =>
    have hle : n + 2 ≤ ('/' :: '*' :: rest).length :=
      Nat.add_le_add_right (Comment.closing?_le hlength) 2
    simp only [Option.map_some]
    rw [← List.cons_append, ← List.cons_append, List.take_append_of_le_length hle]

/-- So is the line for a shell. -/
private theorem ofText_script_append (h : EndsTrivia atStart ('#' :: '!' :: rest) x) :
    ofText trailing atStart ('#' :: '!' :: rest ++ x) = ofText trailing atStart ('#' :: '!' :: rest) := by
  cases atStart with
  | false => rfl
  | true =>
    have htake := h.line (.inr ⟨rfl, rest, rfl⟩)
    exact congrArg (fun line => GapStart.piece (.garbage line)) htake

end Marks

/-- A text starts with the same trivia when something follows that does not go on with it. -/
theorem ofText_append_stop (hx : Stops x) {trailing atStart : Bool} {text : List Char} (hne : text ≠ [])
    (h : EndsTrivia atStart text x) :
    ofText trailing atStart (text ++ x) = ofText trailing atStart text := by
  by_cases hline : ['/', '/'] <+: text
  · obtain ⟨rest, rfl⟩ := hline
    exact ofText_line_append hx h
  by_cases hblock : ['/', '*'] <+: text
  · obtain ⟨rest, rfl⟩ := hblock
    exact ofText_block_append hx h
  by_cases hscript : ['#', '!'] <+: text
  · obtain ⟨rest, rfl⟩ := hscript
    exact ofText_script_append h
  have hunit := RunUnit.ofText?_append hne h.feed
  cases htext : RunUnit.ofText? text with
  | some u =>
    rw [htext] at hunit
    unfold ofText
    rw [hunit, htext]
    simp only [u.count_append h.feed (h.run u htext)]
  | none =>
    rw [htext] at hunit
    obtain ⟨c, rest, rfl⟩ := List.exists_cons_of_ne_nil hne
    -- a mark of two characters lies in the text
    have hnone : ∀ {a b : Char}, a ∉ stoppers → b ∉ stoppers → ¬ [a, b] <+: c :: rest →
        ¬ [a, b] <+: c :: (rest ++ x) := by
      rintro a b ha hb hnot ⟨more, hmore⟩
      have hstart : c :: rest ++ x = a :: ([b] ++ more) := hmore.symm
      obtain ⟨behind, htext, hbehind⟩ := eq_cons_of_append_stop hx ha hstart
      obtain ⟨last, rfl, -⟩ := eq_cons_of_append_stop hx hb hbehind.symm
      exact hnot ⟨last, htext.symm⟩
    rw [List.cons_append] at hunit
    rw [ofText_of_other htext hline hblock hscript, List.cons_append,
      ofText_of_other hunit (hnone (by decide) (by decide) hline) (hnone (by decide) (by decide) hblock)
        (hnone (by decide) (by decide) hscript), ← List.cons_append,
      takeWhile_append_stop hx isGarbage_stopper]

end GapStart

-- ---------------------------------------------------------------------------
-- Numbers
-- ---------------------------------------------------------------------------

namespace Number

/-- Digits stop where every scan does. -/
theorem digitsLength_append_stop (hx : Stops x) (base : Base) (text : List Char) :
    digitsLength base (text ++ x) = digitsLength base text := by
  rw [digitsLength, takeWhile_append_stop hx (by cases base <;> exact forall_stoppers (by decide))]
  rfl

theorem fractionLength_cons_of_ne {base : Base} {c : Char} (hc : c ≠ '.') (rest : List Char) :
    fractionLength base (c :: rest) = 0 := by
  unfold fractionLength
  split
  · rename_i heq
    exact absurd (List.cons.inj heq).1 hc
  · rfl

/-- A fraction stops where every scan does. -/
theorem fractionLength_append_stop (hx : Stops x) (base : Base) (text : List Char) :
    fractionLength base (text ++ x) = fractionLength base text := by
  match text with
  | [] =>
    cases x with
    | nil => rfl
    | cons c more =>
      refine fractionLength_cons_of_ne ?_ more
      rintro rfl
      exact absurd hx.head_mem (by decide)
  | c :: rest =>
    by_cases hc : c = '.'
    · subst hc
      cases rest with
      | nil =>
        cases x with
        | nil => rfl
        | cons c more =>
          have hdigit : ∀ c ∈ stoppers, base.hasDigit c = false := by
            cases base <;> exact forall_stoppers (by decide)
          show (if base.hasDigit c then 1 + digitsLength base (c :: more) else 0) = 0
          rw [hdigit c hx.head_mem]
          rfl
      | cons d rest =>
        show (if base.hasDigit d then 1 + digitsLength base (d :: rest ++ x) else 0) = _
        rw [digitsLength_append_stop hx]
        rfl
    · rw [List.cons_append, fractionLength_cons_of_ne hc, fractionLength_cons_of_ne hc]

theorem powerLength_append_stop (hx : Stops x) (text : List Char) :
    powerLength (text ++ x) = powerLength text := by
  cases text with
  | nil =>
    cases x with
    | nil => rfl
    | cons c more =>
      have hsign : ∀ c ∈ stoppers, (c == '+' || c == '-') = false := forall_stoppers (by decide)
      have hdigits := digitsLength_append_stop hx .decimal []
      rw [List.nil_append] at hdigits
      simp only [List.nil_append, powerLength, hsign c hx.head_mem, Bool.false_eq_true, if_false, hdigits]
      rfl
  | cons c rest =>
    have hdigits := digitsLength_append_stop hx .decimal (c :: rest)
    rw [List.cons_append] at hdigits
    rw [List.cons_append, powerLength, powerLength, digitsLength_append_stop hx, hdigits]

theorem startsPower_append_stop (hx : Stops x) (text : List Char) :
    startsPower (text ++ x) = startsPower text := by
  have hdigit : ∀ c ∈ stoppers, c.isDigit = false ∧ (c == '+' || c == '-') = false :=
    forall_stoppers (by decide)
  match text with
  | [] =>
    cases x with
    | nil => rfl
    | cons c more =>
      obtain ⟨hc, hsign⟩ := hdigit c hx.head_mem
      simp only [List.nil_append, startsPower, hc, hsign, Bool.false_and, Bool.or_false]
  | [c] =>
    cases x with
    | nil => rfl
    | cons d more =>
      simp [startsPower, (hdigit d hx.head_mem).1]
  | c :: d :: rest => rfl

/-- An exponent stops where every scan does. -/
theorem exponentLength_append_stop (hx : Stops x) (base : Base) (text : List Char) :
    exponentLength base (text ++ x) = exponentLength base text := by
  cases text with
  | nil =>
    cases x with
    | nil => rfl
    | cons c more =>
      have hletter : ∀ c ∈ stoppers, (c == 'e' || c == 'E') = false ∧ (c == 'p' || c == 'P') = false :=
        forall_stoppers (by decide)
      obtain ⟨he, hp⟩ := hletter c hx.head_mem
      cases base <;> simp [exponentLength, he, hp]
  | cons c rest =>
    cases base with
    | decimal | hex =>
      simp only [List.cons_append, exponentLength, powerLength_append_stop hx,
        startsPower_append_stop hx]
    | binary | octal => rfl

/-- A number behind its marker stops where every scan does. -/
theorem measure_append_stop (hx : Stops x) (base : Base) (marker : Nat) (text : List Char) :
    measure base marker (text ++ x) = measure base marker text := by
  have hdigits := digitsLength_le base text
  have hfraction := fractionLength_le base (text.drop (digitsLength base text))
  rw [List.length_drop] at hfraction
  unfold measure
  simp only [digitsLength_append_stop hx, List.drop_append_of_le_length hdigits,
    fractionLength_append_stop hx]
  rw [List.drop_append_of_le_length (by omega), exponentLength_append_stop hx]

/-- Without a marker the base is ten. -/
theorem ofText_eq_measure {text : List Char}
    (h : ∀ marker ∈ ['x', 'o', 'b'], ∀ rest, text ≠ '0' :: marker :: rest) :
    ofText text = measure .decimal 0 text := by
  unfold ofText
  split
  · exact absurd rfl (h 'x' (by decide) _)
  · exact absurd rfl (h 'o' (by decide) _)
  · exact absurd rfl (h 'b' (by decide) _)
  · rfl

/-- A number stops where every scan does. -/
theorem ofText_append_stop (hx : Stops x) (text : List Char) : ofText (text ++ x) = ofText text := by
  by_cases hmarker : ∃ marker ∈ ['x', 'o', 'b'], ∃ rest, text = '0' :: marker :: rest
  · obtain ⟨marker, hmem, rest, rfl⟩ := hmarker
    have hdigits : ∀ base, digitsLength base (rest ++ x) = digitsLength base rest :=
      fun base => digitsLength_append_stop hx base rest
    simp only [List.mem_cons, List.not_mem_nil, or_false] at hmem
    rcases hmem with rfl | rfl | rfl
    · exact measure_append_stop hx .hex 2 rest
    · exact congrArg (fun n => (Kind.integer .octal, 2 + n)) (hdigits .octal)
    · exact congrArg (fun n => (Kind.integer .binary, 2 + n)) (hdigits .binary)
  · rw [ofText_eq_measure, ofText_eq_measure, measure_append_stop hx]
    · exact fun marker hmem rest htext => hmarker ⟨marker, hmem, rest, htext⟩
    · -- a marker that is there now was there before
      have hmarkers : ∀ marker ∈ ['x', 'o', 'b'], marker ∉ stoppers := by simp [stoppers]
      intro marker hmem rest htext
      obtain ⟨rest', rfl, hrest⟩ := eq_cons_of_append_stop hx (by decide) htext
      obtain ⟨rest'', rfl, -⟩ := eq_cons_of_append_stop hx (hmarkers marker hmem) hrest.symm
      exact hmarker ⟨marker, hmem, rest'', rfl⟩

end Number

-- ---------------------------------------------------------------------------
-- Words
-- ---------------------------------------------------------------------------

namespace Word

/-- A word stops where every scan does. -/
theorem leading_append_stop (hx : Stops x) (text : List Char) : leading (text ++ x) = leading text := by
  cases text with
  | nil =>
    cases x with
    | nil => rfl
    | cons c more =>
      have hstart : ∀ c ∈ stoppers, isWordStart c = false := forall_stoppers (by decide)
      simp only [List.nil_append, leading, hstart c hx.head_mem, Bool.false_eq_true, if_false]
  | cons c rest =>
    rw [List.cons_append, leading, leading, ← List.cons_append,
      takeWhile_append_stop hx isWordChar_stopper]

/-- Whether a word is a keyword for what follows it shows in the next word, or in what follows if the
text at hand is blank. -/
theorem actsAsKeyword_append_stop {x' : List Char} (hx : Stops x) (hx' : Stops x') {word : List Char}
    (h : actsAsKeyword word x' = actsAsKeyword word x) (text : List Char) :
    actsAsKeyword word (text ++ x') = actsAsKeyword word (text ++ x) := by
  unfold actsAsKeyword at h ⊢
  rw [List.dropWhile_append, List.dropWhile_append]
  cases text.dropWhile isWhitespace with
  | nil => exact h
  | cons c rest =>
    have hleading : ∀ {z : List Char}, Stops z → leading (c :: (rest ++ z)) = leading (c :: rest) :=
      fun hz => leading_append_stop hz (c :: rest)
    simp only [List.isEmpty_cons, Bool.false_eq_true, if_false, List.cons_append, hleading hx, hleading hx']

end Word

-- ---------------------------------------------------------------------------
-- Operators
-- ---------------------------------------------------------------------------

namespace Operator

/-- An operator stops where every scan does. -/
theorem extension_append_stop (hx : Stops x) (dotted : Bool) (closers : List Nat) (index : Nat)
    (text : List Char) :
    extension dotted closers index (text ++ x) = extension dotted closers index text := by
  induction text generalizing index with
  | nil =>
    cases x with
    | nil => rfl
    | cons c more =>
      have hoperator : ∀ c ∈ stoppers, isOperatorChar c = false ∧ (c == '.') = false :=
        forall_stoppers (by decide)
      obtain ⟨hc, hdot⟩ := hoperator c hx.head_mem
      rw [List.nil_append, extension, extension, hc, hdot, Bool.and_false]
      rfl
  | cons c text ih =>
    have hhead : (text ++ x).head?.any ['/', '*'].contains = text.head?.any ['/', '*'].contains := by
      cases text with
      | cons d text => rfl
      | nil =>
        cases x with
        | nil => rfl
        | cons c more =>
          have hmark : ∀ c ∈ stoppers, ['/', '*'].contains c = false := forall_stoppers (by decide)
          exact hmark c hx.head_mem
    simp only [List.cons_append, extension, hhead, ih (index + 1)]

/-- Only brackets known within the text end an operator early. -/
theorem extension_congr {dotted : Bool} {closers closers' : List Nat} {index index' : Nat}
    {text : List Char}
    (h : ∀ k < text.length, closers.contains (index + k) = closers'.contains (index' + k)) :
    extension dotted closers index text = extension dotted closers' index' text := by
  induction text generalizing index index' with
  | nil => rfl
  | cons c text ih =>
    have hhead : closers.contains index = closers'.contains index' := h 0 (by simp)
    have htail : extension dotted closers (index + 1) text =
        extension dotted closers' (index' + 1) text := by
      refine ih fun k hk => ?_
      rw [Nat.add_assoc, Nat.add_assoc, Nat.add_comm 1 k]
      exact h (k + 1) (by simpa using hk)
    rw [extension, extension, hhead, htail]

/-- What stops a scan binds no operator on its right. -/
theorem isRightBound_append_stop (hx : Stops x) (text : List Char) :
    isRightBound (text ++ x) = isRightBound text := by
  match text with
  | [] =>
    cases x with
    | nil => rfl
    | cons c more =>
      have hblank : ∀ c ∈ stoppers,
          (isWhitespace c || [')', ']', '}', ',', ';', ':'].contains c) = true :=
        forall_stoppers (by decide)
      simp only [List.nil_append, isRightBound, hblank c hx.head_mem, if_true]
  | [c] =>
    cases x with
    | nil => rfl
    | cons d more =>
      have hmark : ∀ c ∈ stoppers, ['/', '*'].contains c = false := forall_stoppers (by decide)
      rw [List.singleton_append, isRightBound, isRightBound]
      simp only [List.head?_cons, Option.any_some, hmark d hx.head_mem, List.head?_nil, Option.any_none]
  | c :: d :: rest => rfl

end Operator

-- ---------------------------------------------------------------------------
-- Literals
-- ---------------------------------------------------------------------------

namespace StringText

/-- A pattern of two characters is the question whether they come first. -/
theorem opensMultiline_eq (text : List Char) :
    opensMultiline text = ['"', '"'].isPrefixOf text := by
  unfold opensMultiline
  split
  · rfl
  · rename_i hnot
    refine (Bool.eq_false_iff.mpr fun hprefix => ?_).symm
    obtain ⟨rest, hrest⟩ := List.isPrefixOf_iff_prefix.mp hprefix
    exact hnot rest hrest.symm

theorem startsInterpolation_eq (text : List Char) :
    startsInterpolation text = ['\\', '('].isPrefixOf text := by
  unfold startsInterpolation
  split
  · rfl
  · rename_i hnot
    refine (Bool.eq_false_iff.mpr fun hprefix => ?_).symm
    obtain ⟨rest, hrest⟩ := List.isPrefixOf_iff_prefix.mp hprefix
    exact hnot rest hrest.symm

theorem opensMultiline_append_stop (hx : Stops x) (text : List Char) :
    opensMultiline (text ++ x) = opensMultiline text := by
  rw [opensMultiline_eq, opensMultiline_eq, isPrefixOf_append_stop hx (forall_stoppers (by decide))]

theorem startsInterpolation_append_stop (hx : Stops x) (text : List Char) :
    startsInterpolation (text ++ x) = startsInterpolation text := by
  rw [startsInterpolation_eq, startsInterpolation_eq,
    isPrefixOf_append_stop hx (forall_stoppers (by decide))]

/-- No quote reaches into a text that stops. -/
theorem startsWithQuote_append_stop (hx : Stops x) (multiline : Bool) (text : List Char) :
    startsWithQuote multiline (text ++ x) = startsWithQuote multiline text :=
  isPrefixOf_append_stop hx (by cases multiline <;> exact forall_stoppers (by decide)) text

/-- Where no backslash starts it, text goes on up to a quote or a break. -/
theorem extent_of_plain {multiline : Bool} {c : Char} {rest : List Char} (hc : c ≠ '\\') :
    extent multiline (c :: rest) =
      if startsWithQuote multiline (c :: rest) then ⟨0, true⟩
      else if !multiline && isLineBreak c then ⟨0, false⟩
      else (extent multiline rest).behind 1 := by
  rw [extent]
  · exact fun h => absurd h hc
  · exact fun _ _ h => absurd h hc

/-- The text of a literal either ends in the text at hand, or is read on where that ends; a backslash
at the end takes one character more with it. -/
theorem extent_append_stop (hx : Stops x) (multiline : Bool) (text : List Char) :
    extent multiline (text ++ x) = extent multiline text ∨
      (extent multiline text).closed = false ∧
        ∃ k, extent multiline (text ++ x) = (extent multiline (x.drop k)).behind (text.length + k) := by
  have hbehind : ∀ (e : Extent) (m n : Nat), (e.behind m).behind n = e.behind (m + n) := by
    intro e m n
    simp [Extent.behind, Nat.add_assoc]
  have hplain : ∀ {c : Char} {rest : List Char}, (c = '\\' → rest = [] → False) →
      (∀ d rest', c = '\\' → rest = d :: rest' → False) → c ≠ '\\' := by
    intro c rest hlast hescape hc
    cases rest with
    | nil => exact hlast hc rfl
    | cons d rest => exact hescape d rest hc rfl
  fun_induction extent multiline text with
  | case1 => exact .inr ⟨rfl, 0, rfl⟩
  | case2 =>
    cases x with
    | nil => exact .inl rfl
    | cons c more =>
      have hc : (c == '(') = false := by
        refine beq_eq_false_iff_ne.mpr ?_
        rintro rfl
        exact absurd hx.head_mem (by decide)
      simp only [List.singleton_append, extent, hc, Bool.false_eq_true, if_false]
      split
      · exact .inl rfl
      · exact .inr ⟨by trivial, 1, rfl⟩
  | case3 c rest hc => exact .inl (by simp only [List.cons_append, extent, hc, if_true])
  | case4 c rest hc hbreak =>
    exact .inl (by simp only [List.cons_append, extent, hc, hbreak, Bool.false_eq_true, if_true, if_false])
  | case5 c rest hc hbreak ih =>
    simp only [List.cons_append, extent, hc, hbreak, Bool.false_eq_true, if_false]
    rcases ih with hsame | ⟨hopen, k, hk⟩
    · exact .inl (by rw [hsame])
    · refine .inr ⟨hopen, k, ?_⟩
      rw [hk, hbehind, List.length_cons, List.length_cons]
      congr 1
      omega
  | case6 c rest hlast hescape hquote =>
    refine .inl ?_
    rw [List.cons_append, extent_of_plain (hplain hlast hescape), ← List.cons_append,
      startsWithQuote_append_stop hx, if_pos hquote]
  | case7 c rest hlast hescape hquote hbreak =>
    refine .inl ?_
    rw [List.cons_append, extent_of_plain (hplain hlast hescape), ← List.cons_append,
      startsWithQuote_append_stop hx, if_neg hquote, if_pos hbreak]
  | case8 c rest hlast hescape hquote hbreak ih =>
    rw [List.cons_append, extent_of_plain (hplain hlast hescape), ← List.cons_append,
      startsWithQuote_append_stop hx, if_neg hquote, if_neg hbreak]
    rcases ih with hsame | ⟨hopen, k, hk⟩
    · exact .inl (by rw [hsame])
    · refine .inr ⟨hopen, k, ?_⟩
      rw [hk, hbehind, List.length_cons]
      congr 1
      omega

/-- The text of a literal that is closed stops where it did. -/
theorem extent_append_of_closed (hx : Stops x) {multiline : Bool} {text : List Char}
    (h : (extent multiline text).closed = true) : extent multiline (text ++ x) = extent multiline text := by
  refine (extent_append_stop hx multiline text).resolve_right ?_
  rintro ⟨hopen, -⟩
  rw [h] at hopen
  cases hopen

/-- Text that ends within the text at hand does not depend on what follows. -/
theorem closed_of_append (hx : Stops x) {multiline : Bool} {text : List Char}
    (hclosed : (extent multiline (text ++ x)).closed = true)
    (hle : (extent multiline (text ++ x)).length ≤ text.length) :
    (extent multiline text).closed = true := by
  rcases extent_append_stop hx multiline text with hsame | ⟨-, k, hk⟩
  · rwa [← hsame]
  · rw [hk] at hclosed hle
    simp only [Extent.behind] at hle
    obtain rfl : k = 0 := by omega
    -- what follows starts neither with a quote nor with an interpolation
    have hquote : startsWithQuote multiline x = false :=
      (startsWithQuote_append_stop hx multiline []).trans (by cases multiline <;> rfl)
    have hpos := extent_length_pos hquote (startsInterpolation_append_stop hx []) hclosed
    rw [List.drop_zero] at hle
    omega

end StringText

namespace RawString

/-- A raw string either ends in the text at hand, or is read on where that ends. -/
theorem bodyExtent_append_stop (hx : Stops x) (hashes : Nat) (multiline : Bool) (text : List Char) :
    bodyExtent hashes multiline (text ++ x) = bodyExtent hashes multiline text ∨
      (bodyExtent hashes multiline text).closed = false ∧
        bodyExtent hashes multiline (text ++ x) =
          (bodyExtent hashes multiline x).behind text.length := by
  have hstop : ∀ c ∈ stoppers, c ∉ terminator hashes multiline := by
    intro c hc hmem
    have hmark : c = '"' ∨ c = '#' :=
      (List.mem_append.mp hmem).imp List.eq_of_mem_replicate List.eq_of_mem_replicate
    rcases hmark with rfl | rfl <;> exact absurd hc (by decide)
  fun_induction bodyExtent hashes multiline text with
  | case1 => exact .inr ⟨rfl, rfl⟩
  | case2 c rest hprefix =>
    refine .inl ?_
    rw [List.cons_append, bodyExtent, ← List.cons_append, isPrefixOf_append_stop hx hstop,
      if_pos hprefix]
  | case3 c rest hprefix hbreak =>
    refine .inl ?_
    rw [List.cons_append, bodyExtent, ← List.cons_append, isPrefixOf_append_stop hx hstop,
      if_neg hprefix, if_pos hbreak]
  | case4 c rest hprefix hbreak ih =>
    rw [List.cons_append, bodyExtent, ← List.cons_append, isPrefixOf_append_stop hx hstop,
      if_neg hprefix, if_neg hbreak]
    rcases ih with hsame | ⟨hopen, hon⟩
    · exact .inl (by rw [hsame])
    · refine .inr ⟨hopen, ?_⟩
      rw [hon, List.length_cons]
      rfl

/-- A raw string either ends in the text at hand, or is read on where that ends. -/
theorem extent_append_stop (hx : Stops x) (hashes : Nat) (text : List Char) :
    extent hashes (text ++ x) = extent hashes text ∨
      (extent hashes text).closed = false ∧
        ∃ multiline, extent hashes (text ++ x) =
          (bodyExtent hashes multiline x).behind (hashes + 1 + text.length) := by
  have hquote := StringText.quoteLength_opensMultiline_le text
  have hle : StringText.quoteLength (StringText.opensMultiline text) - 1 ≤ text.length := by
    omega
  have hpos : 0 < StringText.quoteLength (StringText.opensMultiline text) := by
    cases StringText.opensMultiline text <;> decide
  unfold extent
  simp only [StringText.opensMultiline_append_stop hx, List.drop_append_of_le_length hle]
  rcases bodyExtent_append_stop hx hashes (StringText.opensMultiline text)
    (text.drop (StringText.quoteLength (StringText.opensMultiline text) - 1)) with hsame | ⟨hopen, hon⟩
  · exact .inl (by rw [hsame])
  · refine .inr ⟨hopen, StringText.opensMultiline text, ?_⟩
    rw [hon, List.length_drop]
    simp only [Extent.behind, Extent.mk.injEq, and_true]
    omega

/-- A raw string that is closed stops where it did. -/
theorem extent_append_of_closed (hx : Stops x) {hashes : Nat} {text : List Char}
    (h : (extent hashes text).closed = true) : extent hashes (text ++ x) = extent hashes text := by
  refine (extent_append_stop hx hashes text).resolve_right ?_
  rintro ⟨hopen, -⟩
  rw [h] at hopen
  cases hopen

private theorem bodyExtent_length_pos {hashes : Nat} {multiline : Bool} {text : List Char}
    (h : (bodyExtent hashes multiline text).closed = true) :
    0 < (bodyExtent hashes multiline text).length := by
  fun_induction bodyExtent hashes multiline text with
  | case1 | case3 => cases h
  | case2 =>
    rw [terminator, List.length_append, List.length_replicate]
    cases multiline <;> exact Nat.lt_of_lt_of_le (by decide) (Nat.le_add_right ..)
  | case4 => exact Nat.succ_pos _

/-- A raw string that ends within the text at hand does not depend on what follows. -/
theorem closed_of_append (hx : Stops x) {hashes : Nat} {text : List Char}
    (hclosed : (extent hashes (text ++ x)).closed = true)
    (hle : (extent hashes (text ++ x)).length ≤ hashes + 1 + text.length) :
    (extent hashes text).closed = true := by
  rcases extent_append_stop hx hashes text with hsame | ⟨-, multiline, hon⟩
  · rwa [← hsame]
  · rw [hon] at hclosed hle
    have hpos := bodyExtent_length_pos hclosed
    simp only [Extent.behind] at hle
    omega

end RawString

end SwiftColoring
