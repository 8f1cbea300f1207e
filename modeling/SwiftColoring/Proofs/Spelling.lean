import SwiftColoring.Proofs.Reach

/-!
# What lexemes are spelled with

Of a lexeme that is found by counting characters, this module tells which they are: the characters of
numbers and of operators, what an operator stops at, and what a raw string ends with.

* `Number.isNumberChar_of_mem` — numbers are made of word characters, dots and signs.
* `Operator.mem_take_extension`, `Operator.extension_stop` — an operator goes on as long as it can.
* `RawString.exists_body_of_closed` — a raw string is closed where it can be for the first time.
* `RawString.getLast?_take_extent` — it ends with a number sign.
-/

namespace SwiftColoring

private theorem isAscii_of_le {c d : Char} (h : c ≤ d) (hd : d.toNat < 0x80) :
    Unicode.isAscii c = true :=
  decide_eq_true (Nat.lt_of_le_of_lt (UInt32.le_iff_toNat_le.mp h) hd)

/-- Digits and letters of ASCII continue words. -/
private theorem isWordChar_of_range {c : Char} (h : ('0' ≤ c ∧ c ≤ '9') ∨ ('a' ≤ c ∧ c ≤ 'z') ∨
    ('A' ≤ c ∧ c ≤ 'Z')) : isWordChar c = true := by
  have hclass : Unicode.isAscii c = true ∧ (c.isAlpha || c.isDigit) = true := by
    rcases h with ⟨hlow, hhigh⟩ | ⟨hlow, hhigh⟩ | ⟨hlow, hhigh⟩
    · have hdigit : c.isDigit = true :=
        Bool.and_eq_true_iff.mpr ⟨decide_eq_true hlow, decide_eq_true hhigh⟩
      exact ⟨isAscii_of_le hhigh (by decide), by rw [hdigit, Bool.or_true]⟩
    · have hlower : c.isLower = true :=
        Bool.and_eq_true_iff.mpr ⟨decide_eq_true hlow, decide_eq_true hhigh⟩
      have halpha : c.isAlpha = true := Bool.or_eq_true_iff.mpr (.inr hlower)
      exact ⟨isAscii_of_le hhigh (by decide), by rw [halpha, Bool.true_or]⟩
    · have hupper : c.isUpper = true := decide_eq_true ⟨hlow, hhigh⟩
      have halpha : c.isAlpha = true := Bool.or_eq_true_iff.mpr (.inl hupper)
      exact ⟨isAscii_of_le hhigh (by decide), by rw [halpha, Bool.true_or]⟩
  rw [isWordChar, Unicode.isAlphanumeric_eq hclass.1, hclass.2, Bool.true_or]

/-- The digits of every base are letters or digits of base ten. -/
theorem Base.isWordChar_of_hasDigit {base : Base} {c : Char} (h : base.hasDigit c = true) :
    isWordChar c = true := by
  have hdigit : c.isDigit = true → '0' ≤ c ∧ c ≤ '9' := by
    intro hdigit
    obtain ⟨hlow, hhigh⟩ := Bool.and_eq_true_iff.mp hdigit
    exact ⟨of_decide_eq_true hlow, of_decide_eq_true hhigh⟩
  refine isWordChar_of_range ?_
  cases base with
  | decimal => exact .inl (hdigit h)
  | binary =>
    simp only [hasDigit, Bool.or_eq_true, beq_iff_eq] at h
    rcases h with rfl | rfl <;> exact .inl (by decide)
  | octal =>
    simp only [hasDigit, Bool.and_eq_true, decide_eq_true_eq] at h
    exact .inl ⟨h.1, Char.le_trans h.2 (by decide)⟩
  | hex =>
    simp only [hasDigit, Bool.or_eq_true, Bool.and_eq_true, decide_eq_true_eq, or_assoc] at h
    rcases h with hten | hlower | hupper
    · exact .inl (hdigit hten)
    · exact .inr (.inl ⟨hlower.1, Char.le_trans hlower.2 (by decide)⟩)
    · exact .inr (.inr ⟨hupper.1, Char.le_trans hupper.2 (by decide)⟩)

/-- What is taken while the characters are of a sort is of that sort. -/
theorem of_mem_take_takeWhile {p : Char → Bool} {text : List Char} {c : Char}
    (hc : c ∈ text.take (text.takeWhile p).length) : p c = true := by
  rw [← List.prefix_iff_eq_take.mp (List.takeWhile_prefix p)] at hc
  exact List.all_eq_true.mp List.all_takeWhile c hc

-- ---------------------------------------------------------------------------
-- Numbers
-- ---------------------------------------------------------------------------

namespace Number

/-- The characters that numbers are made of. -/
def isNumberChar (c : Char) : Bool := isWordChar c || ['.', '+', '-'].contains c

/-- The characters may all stand in a number. -/
private def Numeral (text : List Char) : Prop := ∀ c ∈ text, isNumberChar c = true

/-- Two stretches of a number in a row are one. -/
private theorem Numeral.take_add {a b : Nat} {text : List Char} (ha : Numeral (text.take a))
    (hb : Numeral ((text.drop a).take b)) : Numeral (text.take (a + b)) := by
  intro c hc
  rw [List.take_add] at hc
  rcases List.mem_append.mp hc with hc | hc
  · exact ha c hc
  · exact hb c hc

/-- So are a character and the stretch behind it. -/
private theorem Numeral.cons {c : Char} {n : Nat} {text : List Char} (hc : isNumberChar c = true)
    (h : Numeral (text.take n)) : Numeral ((c :: text).take (1 + n)) := by
  intro d hd
  rw [Nat.add_comm, List.take_succ_cons] at hd
  rcases List.mem_cons.mp hd with rfl | hd
  · exact hc
  · exact h d hd

/-- The digits of a number are characters of numbers. -/
private theorem numeral_digits (base : Base) (text : List Char) :
    Numeral (text.take (digitsLength base text)) := by
  intro c hc
  rw [digitsLength] at hc
  have hdigit := of_mem_take_takeWhile hc
  rw [Bool.or_eq_true, beq_iff_eq] at hdigit
  rw [isNumberChar]
  rcases hdigit with rfl | hdigit
  · rfl
  · rw [Base.isWordChar_of_hasDigit hdigit, Bool.true_or]

/-- So are those of its fraction. -/
private theorem numeral_fraction (base : Base) (text : List Char) :
    Numeral (text.take (fractionLength base text)) := by
  unfold fractionLength
  split
  · split
    · exact .cons (by decide) (numeral_digits base _)
    · simp [Numeral]
  · simp [Numeral]

private theorem numeral_power (text : List Char) : Numeral (text.take (powerLength text)) := by
  unfold powerLength
  split
  · simp [Numeral]
  · rename_i c rest
    split
    · rename_i hsign
      refine .cons ?_ (numeral_digits .decimal rest)
      rw [Bool.or_eq_true, beq_iff_eq, beq_iff_eq] at hsign
      rcases hsign with rfl | rfl <;> decide
    · exact numeral_digits .decimal (c :: rest)

/-- So are those of its exponent. -/
private theorem numeral_exponent (base : Base) (text : List Char) :
    Numeral (text.take (exponentLength base text)) := by
  have hletter : ∀ {c : Char} (rest : List Char), c ∈ ['e', 'E', 'p', 'P'] →
      Numeral ((c :: rest).take (1 + powerLength rest)) := by
    intro c rest hc
    refine .cons ?_ (numeral_power rest)
    simp only [List.mem_cons, List.not_mem_nil, or_false] at hc
    rcases hc with rfl | rfl | rfl | rfl <;> decide
  unfold exponentLength
  split
  · simp [Numeral]
  · rename_i c rest
    split
    · split
      · rename_i hc
        simp only [Bool.and_eq_true, Bool.or_eq_true, beq_iff_eq] at hc
        exact hletter rest (by rcases hc.1 with rfl | rfl <;> decide)
      · simp [Numeral]
    · split
      · rename_i hc
        simp only [Bool.or_eq_true, beq_iff_eq] at hc
        exact hletter rest (by rcases hc with rfl | rfl <;> decide)
      · simp [Numeral]
    · simp [Numeral]

/-- So are all of a number behind its marker. -/
private theorem numeral_measure (base : Base) (text : List Char) :
    Numeral (text.take (measure base 0 text).2) := by
  unfold measure
  simp only [Nat.zero_add]
  refine .take_add (.take_add (numeral_digits base text) (numeral_fraction base _)) ?_
  exact numeral_exponent base _

/-- The marker adds its own length. -/
private theorem measure_length (base : Base) (marker : Nat) (text : List Char) :
    (measure base marker text).2 = marker + (measure base 0 text).2 := by
  simp only [measure]
  omega

private theorem numeral_marker {c : Char} {n : Nat} {text : List Char} (hc : c ∈ ['x', 'o', 'b'])
    (h : Numeral (text.take n)) : Numeral (('0' :: c :: text).take (2 + n)) := by
  rw [show 2 + n = 1 + (1 + n) by omega]
  refine .cons (by decide) (.cons ?_ h)
  simp only [List.mem_cons, List.not_mem_nil, or_false] at hc
  rcases hc with rfl | rfl | rfl <;> decide

/-- A number is made of such characters. -/
theorem isNumberChar_of_mem (text : List Char) :
    ∀ c ∈ text.take (ofText text).2, isNumberChar c = true := by
  unfold ofText
  split
  · rename_i text
    rw [measure_length]
    exact numeral_marker (by decide) (numeral_measure .hex text)
  · rename_i text
    exact numeral_marker (by decide) (numeral_digits .octal text)
  · rename_i text
    exact numeral_marker (by decide) (numeral_digits .binary text)
  · exact numeral_measure .decimal text

end Number

/-- A word is made of characters that continue words. -/
theorem Word.isWordChar_of_mem_leading (text : List Char) :
    ∀ c ∈ text.take (leading text).length, isWordChar c = true := by
  intro c hc
  unfold leading at hc
  split at hc
  · cases hc
  · split at hc
    · exact of_mem_take_takeWhile hc
    · cases hc

-- ---------------------------------------------------------------------------
-- Operators
-- ---------------------------------------------------------------------------

namespace Operator

/-- What extends an operator is made of operator characters and dots. -/
theorem mem_take_extension (dotted : Bool) (closers : List Nat) (index : Nat) (text : List Char) :
    ∀ c ∈ text.take (extension dotted closers index text), isOperatorChar c = true ∨ c = '.' := by
  intro d hd
  fun_induction extension dotted closers index text with
  | case1 | case2 | case3 | case4 => simp at hd
  | case5 index c rest hoperator _ _ ih =>
    rw [Nat.add_comm, List.take_succ_cons] at hd
    rcases List.mem_cons.mp hd with rfl | hd
    · simp only [Bool.not_eq_true', Bool.not_eq_false, Bool.or_eq_true, Bool.and_eq_true,
        beq_iff_eq] at hoperator
      exact hoperator.imp_right And.right
    · exact ih hd

/-- What an operator stops at: no operator character, a comment, or a bracket known to close. -/
theorem extension_stop (dotted : Bool) (closers : List Nat) (index : Nat) (text : List Char) :
    ∀ c rest, text.drop (extension dotted closers index text) = c :: rest →
      isOperatorChar c = false ∨ (c = '/' ∧ rest.head?.any ['/', '*'].contains = true) ∨
        (c = '>' ∧ closers.contains (index + extension dotted closers index text) = true) := by
  intro d more hstop
  fun_induction extension dotted closers index text with
  | case1 => cases hstop
  | case2 index c rest hoperator =>
    obtain ⟨rfl, rfl⟩ := List.cons.inj hstop
    rw [Bool.not_eq_true', Bool.or_eq_false_iff] at hoperator
    exact .inl hoperator.1
  | case3 index c rest _ hcomment =>
    obtain ⟨rfl, rfl⟩ := List.cons.inj hstop
    rw [Bool.and_eq_true, beq_iff_eq] at hcomment
    exact .inr (.inl hcomment)
  | case4 index c rest _ _ hcloses =>
    obtain ⟨rfl, rfl⟩ := List.cons.inj hstop
    rw [Bool.and_eq_true, beq_iff_eq] at hcloses
    exact .inr (.inr hcloses)
  | case5 index c rest _ _ _ ih =>
    rw [Nat.add_comm 1, List.drop_succ_cons] at hstop
    rw [← Nat.add_assoc]
    exact ih hstop

end Operator

-- ---------------------------------------------------------------------------
-- Raw strings
-- ---------------------------------------------------------------------------

namespace RawString

variable {hashes : Nat} {multiline : Bool} {text : List Char}

/-- What closes a raw string has the marks of its quote and its signs. -/
theorem length_terminator (hashes : Nat) (multiline : Bool) :
    (terminator hashes multiline).length = StringText.quoteLength multiline + hashes := by
  rw [terminator, List.length_append, List.length_replicate, List.length_replicate]

/-- What the search passes is a body and what closes it. The body does not hold what closes it. -/
theorem exists_body_of_closed (h : (bodyExtent hashes multiline text).closed = true) :
    ∃ body, text.take (bodyExtent hashes multiline text).length = body ++ terminator hashes multiline ∧
      ¬ terminator hashes multiline <:+: body ∧
      (multiline = false → ∀ c ∈ body, c ≠ '\n' ∧ c ≠ '\r') := by
  fun_induction bodyExtent hashes multiline text with
  | case1 | case3 => cases h
  | case2 c rest hcloses =>
    refine ⟨[], (List.prefix_iff_eq_take.mp (List.isPrefixOf_iff_prefix.mp hcloses)).symm, ?_, by simp⟩
    intro hholds
    have hlength := hholds.length_le
    have hquote := Lexer.quoteLength_pos multiline
    rw [length_terminator, List.length_nil] at hlength
    omega
  | case4 c rest hcloses hbreak ih =>
    obtain ⟨body, hbody, hholds, hline⟩ := ih h
    have htake : (c :: rest).take ((bodyExtent hashes multiline rest).behind 1).length =
        c :: body ++ terminator hashes multiline := by
      rw [Extent.behind, List.take_succ_cons, hbody, List.cons_append]
    refine ⟨c :: body, htake, fun hmore => ?_, fun hmultiline d hd => ?_⟩
    · -- it does not stand before the character either, or the search would have stopped there
      rcases List.infix_cons_iff.mp hmore with hstarts | hmore
      · have hwithin : c :: body <+: c :: rest :=
          (List.prefix_append ..).trans (htake ▸ List.take_prefix ..)
        exact hcloses (List.isPrefixOf_iff_prefix.mpr (hstarts.trans hwithin))
      · exact hholds hmore
    · rcases List.mem_cons.mp hd with rfl | hd
      · simpa [hmultiline, isLineBreak] using hbreak
      · exact hline hmultiline d hd

/-- A raw string ends with a number sign, as many of them as it starts with. -/
theorem getLast?_take_extent {body : List Char} (hbody : text.drop hashes = '"' :: body)
    (hclosed : (extent (hashes + 1) body).closed = true) :
    (('#' :: text).take (extent (hashes + 1) body).length).getLast? = some '#' := by
  unfold extent at hclosed ⊢
  simp only [Extent.behind] at hclosed ⊢
  generalize StringText.opensMultiline body = multiline at hclosed ⊢
  obtain ⟨inner, hinner, -⟩ := exists_body_of_closed hclosed
  have hdrop : ('#' :: text).drop (hashes + 1 + StringText.quoteLength multiline) =
      body.drop (StringText.quoteLength multiline - 1) := by
    rw [Nat.add_right_comm, List.drop_succ_cons, ← List.drop_drop, hbody]
    cases multiline <;> rfl
  rw [Nat.add_comm, List.take_add, hdrop, hinner, terminator, List.replicate_succ', ← List.append_assoc,
    ← List.append_assoc, ← List.append_assoc, List.getLast?_concat]

end RawString

end SwiftColoring
