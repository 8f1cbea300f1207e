import Mathlib.Computability.Language
import SwiftColoring.Proofs.Calls
import SwiftColoring.Proofs.Spelling
import SwiftColoring.Proofs.Stop

/-!
# Numbers are the longest match of a grammar

The search for a number goes from part to part: marker, digits, fraction, exponent. At each part it looks at
three characters at most and never goes back. The grammar says, without saying how they are found, which
texts are numbers. What the search finds is the longest text of the grammar that the source starts with,
and there is one kind that it belongs to.

No part can be cut short in favour of a longer number: what follows a shorter run of digits is a digit or an
underscore, with which no other part starts.

* `Number.numerals` — the grammar.
* `Number.measure_le` — the search passes every text of the grammar.
* `Number.exists_parts_of_measure` — what it passes is a text of the grammar.
* `Number.isLongest_ofText` — so it finds the longest one.
* `numbers_are_longest_matches` — the whole statement.
-/

namespace SwiftColoring

namespace Number

-- ---------------------------------------------------------------------------
-- The grammar
-- ---------------------------------------------------------------------------

/-- The texts of one character of a class. -/
def oneOf (p : Char → Bool) : Language Char := {text | ∃ c, p c = true ∧ text = [c]}

/-- Digits of the base and underscores. -/
def digits (base : Base) : Language Char := KStar.kstar (oneOf fun c => c == '_' || base.hasDigit c)

/-- Digits and underscores that start with a digit. -/
def digitRuns (base : Base) : Language Char := oneOf base.hasDigit * digits base

/-- What announces the base. -/
def marker : Base → List Char
  | .decimal => []
  | .hex => ['0', 'x']
  | .octal => ['0', 'o']
  | .binary => ['0', 'b']

/-- Integers of the base. Behind a marker, digits may be missing. -/
def integers : Base → Language Char
  | .decimal => digitRuns .decimal
  | base => {marker base} * digits base

def fractions : Base → Language Char
  | .octal | .binary => 0
  | base => oneOf (· == '.') * digitRuns base

def signs : Language Char := oneOf fun c => c == '+' || c == '-'

/-- Exponents count in base ten. In base sixteen their digits may be missing. -/
def exponents : Base → Language Char
  | .decimal => oneOf (fun c => c == 'e' || c == 'E') * ((1 + signs) * digitRuns .decimal)
  | .hex => oneOf (fun c => c == 'p' || c == 'P') * ((1 + signs) * digits .decimal)
  | .octal | .binary => 0

/-- The numbers of a kind: a floating one has a fraction or an exponent, or both. -/
def numerals : Kind → Language Char
  | .integer base => integers base
  | .float => {text | ∃ base, text ∈
      integers base * (fractions base + exponents base + fractions base * exponents base)}
  | _ => 0

/-- Of all numbers that the source starts with, the text is the longest, and it is of this kind only. -/
structure IsLongest (source : List Char) (kind : Kind) (text : List Char) : Prop where
  mem : text ∈ numerals kind
  starts : text <+: source
  longest : ∀ kind' text', text' ∈ numerals kind' → text' <+: source →
    text'.length < text.length ∨ text' = text ∧ kind' = kind

variable {base : Base} {body fraction exponent rest text : List Char}

theorem mem_oneOf {p : Char → Bool} : text ∈ oneOf p ↔ ∃ c, p c = true ∧ text = [c] := Iff.rfl

theorem mem_digits : text ∈ digits base ↔ ∀ c ∈ text, (c == '_' || base.hasDigit c) = true := by
  rw [digits, Language.mem_kstar]
  constructor
  · rintro ⟨parts, rfl, hparts⟩ c hc
    obtain ⟨part, hpart, hmem⟩ := List.mem_flatten.mp hc
    obtain ⟨d, hd, rfl⟩ := mem_oneOf.mp (hparts part hpart)
    rw [List.mem_singleton.mp hmem]
    exact hd
  · intro h
    refine ⟨text.map fun c => [c], ?_, fun part hpart => ?_⟩
    · rw [← List.flatMap_def, List.flatMap_singleton']
    · obtain ⟨c, hc, rfl⟩ := List.mem_map.mp hpart
      exact mem_oneOf.mpr ⟨c, h c hc, rfl⟩

theorem mem_digitRuns :
    text ∈ digitRuns base ↔ ∃ d more, text = d :: more ∧ base.hasDigit d = true ∧ more ∈ digits base := by
  rw [digitRuns, Language.mem_mul]
  constructor
  · rintro ⟨first, hfirst, more, hmore, rfl⟩
    obtain ⟨d, hd, rfl⟩ := mem_oneOf.mp hfirst
    exact ⟨d, more, rfl, hd, hmore⟩
  · rintro ⟨d, more, rfl, hd, hmore⟩
    exact ⟨[d], mem_oneOf.mpr ⟨d, hd, rfl⟩, more, hmore, rfl⟩

theorem mem_digits_of_mem_digitRuns (h : text ∈ digitRuns base) : text ∈ digits base := by
  obtain ⟨d, more, rfl, hd, hmore⟩ := mem_digitRuns.mp h
  rw [mem_digits] at hmore ⊢
  refine List.forall_mem_cons.mpr ⟨?_, hmore⟩
  rw [hd, Bool.or_true]

theorem exists_of_mem_fractions (h : text ∈ fractions base) :
    ∃ run, text = '.' :: run ∧ run ∈ digitRuns base := by
  cases base with
  | decimal | hex =>
    obtain ⟨dot, hdot, run, hrun, rfl⟩ := Language.mem_mul.mp h
    obtain ⟨c, hc, rfl⟩ := mem_oneOf.mp hdot
    rw [eq_of_beq hc]
    exact ⟨run, rfl, hrun⟩
  | octal | binary => cases h

/-- An exponent is a letter, a sign or none, and digits. -/
theorem exists_of_mem_exponents (h : exponent ∈ exponents base) :
    ∃ letter sign run, exponent = letter :: (sign ++ run) ∧ sign ∈ 1 + signs ∧
      (base = .decimal ∧ (letter == 'e' || letter == 'E') = true ∧ run ∈ digitRuns .decimal ∨
        base = .hex ∧ (letter == 'p' || letter == 'P') = true ∧ run ∈ digits .decimal) := by
  cases base with
  | octal | binary => cases h
  | decimal | hex =>
    obtain ⟨first, hfirst, power, hpower, rfl⟩ := Language.mem_mul.mp h
    obtain ⟨letter, hletter, rfl⟩ := mem_oneOf.mp hfirst
    obtain ⟨sign, hsign, run, hrun, rfl⟩ := Language.mem_mul.mp hpower
    exact ⟨letter, sign, run, rfl, hsign, by simp [hletter, hrun]⟩

-- ---------------------------------------------------------------------------
-- Numbers by their parts
-- ---------------------------------------------------------------------------

/-- The kind of a number of the base with these parts. -/
def kindOf (base : Base) (fraction exponent : List Char) : Kind :=
  if fraction = [] ∧ exponent = [] then .integer base else .float

/-- A number by its parts. -/
structure IsParts (base : Base) (whole fraction exponent : List Char) : Prop where
  whole_mem : whole ∈ integers base
  fraction_mem : fraction ∈ 1 + fractions base
  exponent_mem : exponent ∈ 1 + exponents base

theorem nil_not_mem_fractions : [] ∉ fractions base := by
  intro h
  obtain ⟨run, hrun, -⟩ := exists_of_mem_fractions h
  cases hrun

theorem nil_not_mem_exponents : [] ∉ exponents base := by
  intro h
  obtain ⟨letter, sign, run, hrun, -⟩ := exists_of_mem_exponents h
  cases hrun

theorem kindOf_nil : kindOf base [] [] = .integer base := if_pos ⟨rfl, rfl⟩

theorem kindOf_of_fraction (h : fraction ∈ fractions base) : kindOf base fraction exponent = .float :=
  if_neg fun hnil => nil_not_mem_fractions (hnil.1 ▸ h)

theorem kindOf_of_exponent (h : exponent ∈ exponents base) : kindOf base fraction exponent = .float :=
  if_neg fun hnil => nil_not_mem_exponents (hnil.2 ▸ h)

/-- The texts of a kind are those whose parts make up that kind. -/
theorem mem_numerals_iff {kind : Kind} : text ∈ numerals kind ↔ ∃ base whole fraction exponent,
    IsParts base whole fraction exponent ∧ text = whole ++ (fraction ++ exponent) ∧
      kind = kindOf base fraction exponent := by
  constructor
  · intro h
    cases kind with
    | integer base =>
      exact ⟨base, text, [], [], ⟨h, .inl rfl, .inl rfl⟩, (List.append_nil _).symm, kindOf_nil.symm⟩
    | float =>
      obtain ⟨base, whole, hwhole, tail, htail, rfl⟩ := h
      rcases htail with (hfraction | hexponent) | ⟨fraction, hfraction, exponent, hexponent, rfl⟩
      · exact ⟨base, whole, tail, [], ⟨hwhole, .inr hfraction, .inl rfl⟩, by rw [List.append_nil],
          (kindOf_of_fraction hfraction).symm⟩
      · exact ⟨base, whole, [], tail, ⟨hwhole, .inl rfl, .inr hexponent⟩, rfl,
          (kindOf_of_exponent hexponent).symm⟩
      · exact ⟨base, whole, fraction, exponent, ⟨hwhole, .inr hfraction, .inr hexponent⟩, rfl,
          (kindOf_of_fraction hfraction).symm⟩
    | _ => cases h
  · rintro ⟨base, whole, fraction, exponent, ⟨hwhole, hfraction, hexponent⟩, rfl, rfl⟩
    rcases hfraction with rfl | hfraction
    · rcases hexponent with rfl | hexponent
      · rw [kindOf_nil, List.append_nil, List.append_nil]
        exact hwhole
      · rw [kindOf_of_exponent hexponent]
        exact ⟨base, whole, hwhole, exponent, .inl (.inr hexponent), rfl⟩
    · rw [kindOf_of_fraction hfraction]
      rcases hexponent with rfl | hexponent
      · exact ⟨base, whole, hwhole, fraction, .inl (.inl hfraction), by rw [List.append_nil]⟩
      · exact ⟨base, whole, hwhole, fraction ++ exponent,
          .inr ⟨fraction, hfraction, exponent, hexponent, rfl⟩, rfl⟩

-- ---------------------------------------------------------------------------
-- The search passes every text of the grammar
-- ---------------------------------------------------------------------------

theorem digitsLength_append (h : body ∈ digits base) (rest : List Char) :
    digitsLength base (body ++ rest) = body.length + digitsLength base rest := by
  rw [digitsLength, List.takeWhile_append_of_pos (mem_digits.mp h), List.length_append]
  rfl

theorem digitsLength_cons_of_not {c : Char} (hc : (c == '_' || base.hasDigit c) = false)
    (rest : List Char) : digitsLength base (c :: rest) = 0 := by
  rw [digitsLength, List.takeWhile_cons, hc]
  rfl

/-- A fraction that is there is passed, with the digits behind it. -/
theorem fractionLength_append (h : fraction ∈ fractions base) (rest : List Char) :
    fractionLength base (fraction ++ rest) = fraction.length + digitsLength base rest := by
  obtain ⟨run, rfl, hrun⟩ := exists_of_mem_fractions h
  have hdigits := digitsLength_append (mem_digits_of_mem_digitRuns hrun) rest
  obtain ⟨d, more, rfl, hd, -⟩ := mem_digitRuns.mp hrun
  show (if base.hasDigit d then 1 + digitsLength base (d :: more ++ rest) else 0) = _
  rw [if_pos hd, hdigits]
  simp only [List.length_cons]
  omega

/-- The letter of an exponent starts no other part. -/
theorem letter_cases {letter : Char} (h : base = .decimal ∧ (letter == 'e' || letter == 'E') = true ∨
    base = .hex ∧ (letter == 'p' || letter == 'P') = true) :
    (letter == '_' || base.hasDigit letter) = false ∧ letter ≠ '.' := by
  simp only [Bool.or_eq_true, beq_iff_eq] at h
  rcases h with ⟨rfl, rfl | rfl⟩ | ⟨rfl, rfl | rfl⟩ <;> decide

theorem parts_of_exponent (h : exponent ∈ exponents base) (rest : List Char) :
    digitsLength base (exponent ++ rest) = 0 ∧ fractionLength base (exponent ++ rest) = 0 := by
  obtain ⟨letter, sign, run, rfl, -, hbase⟩ := exists_of_mem_exponents h
  obtain ⟨hdigit, hdot⟩ := letter_cases
    (hbase.imp (fun h => ⟨h.1, h.2.1⟩) fun h => ⟨h.1, h.2.1⟩)
  exact ⟨digitsLength_cons_of_not hdigit _, fractionLength_cons_of_ne hdot _⟩

theorem sign_cases {sign : List Char} (h : sign ∈ 1 + signs) :
    sign = [] ∨ ∃ c, (c == '+' || c == '-') = true ∧ sign = [c] := h.imp id id

theorem not_sign_of_digit {c : Char} (h : (c == '_' || c.isDigit) = true) :
    (c == '+' || c == '-') = false := by
  refine Bool.eq_false_iff.mpr fun hsign => ?_
  rw [Bool.or_eq_true, beq_iff_eq, beq_iff_eq] at hsign
  rcases hsign with rfl | rfl <;> exact absurd h (by decide)

theorem le_powerLength {sign run : List Char} (hsign : sign ∈ 1 + signs) (hrun : run ∈ digits .decimal)
    (rest : List Char) : (sign ++ run).length ≤ powerLength (sign ++ (run ++ rest)) := by
  have hdigits := digitsLength_append hrun rest
  rw [List.length_append]
  rcases sign_cases hsign with rfl | ⟨c, hc, rfl⟩
  · cases run with
    | nil => exact Nat.zero_le _
    | cons d more =>
      have hd := not_sign_of_digit (mem_digits.mp hrun d (List.mem_cons_self ..))
      show _ ≤ if (d == '+' || d == '-') = true then _ else digitsLength .decimal (d :: more ++ rest)
      rw [hd, if_neg Bool.false_ne_true, hdigits]
      simp only [List.length_nil]
      omega
  · show _ ≤ if (c == '+' || c == '-') = true then 1 + digitsLength .decimal (run ++ rest) else _
    rw [if_pos hc, hdigits, List.length_singleton]
    omega

theorem startsPower_append {sign run : List Char} (hsign : sign ∈ 1 + signs)
    (hrun : run ∈ digitRuns .decimal) (rest : List Char) :
    startsPower (sign ++ (run ++ rest)) = true := by
  obtain ⟨d, more, rfl, hd, -⟩ := mem_digitRuns.mp hrun
  have hdigit : d.isDigit = true := hd
  rcases sign_cases hsign with rfl | ⟨c, hc, rfl⟩
  · simp only [List.nil_append, List.cons_append, startsPower, hdigit, Bool.true_or]
  · simp only [List.nil_append, List.cons_append, startsPower, hc, List.head?_cons, Option.any_some,
      hdigit, Bool.true_and, Bool.or_true]

/-- An exponent that is there is passed. -/
theorem le_exponentLength (h : exponent ∈ exponents base) (rest : List Char) :
    exponent.length ≤ exponentLength base (exponent ++ rest) := by
  obtain ⟨letter, sign, run, rfl, hsign, ⟨rfl, hletter, hrun⟩ | ⟨rfl, hletter, hrun⟩⟩ :=
    exists_of_mem_exponents h
  · have hpower := le_powerLength hsign (mem_digits_of_mem_digitRuns hrun) rest
    have hstarts := startsPower_append hsign hrun rest
    rw [List.cons_append, List.append_assoc, exponentLength, hletter, hstarts, Bool.and_self,
      if_pos rfl, List.length_cons]
    omega
  · have hpower := le_powerLength hsign hrun rest
    rw [List.cons_append, List.append_assoc, exponentLength, if_pos hletter, List.length_cons]
    omega

/-- Digits that are there are passed. If more is passed with them, no other part follows. -/
theorem digitsLength_step (hbody : body ∈ digits base) (hfraction : fraction ∈ 1 + fractions base)
    (hexponent : exponent ∈ 1 + exponents base) (rest : List Char) :
    digitsLength base (body ++ (fraction ++ (exponent ++ rest))) = body.length ∨
      body.length < digitsLength base (body ++ (fraction ++ (exponent ++ rest))) ∧
        fraction = [] ∧ exponent = [] := by
  rw [digitsLength_append hbody]
  rcases hfraction with rfl | hfraction
  · rcases hexponent with rfl | hexponent
    · by_cases hmore : digitsLength base rest = 0
      · left
        simp only [List.nil_append, hmore, Nat.add_zero]
      · exact .inr ⟨by simp only [List.nil_append]; omega, rfl, rfl⟩
    · left
      rw [List.nil_append, (parts_of_exponent hexponent rest).1, Nat.add_zero]
  · left
    obtain ⟨run, rfl, -⟩ := exists_of_mem_fractions hfraction
    rw [List.cons_append, digitsLength_cons_of_not (by cases base <;> decide), Nat.add_zero]

/-- The same for a fraction. -/
theorem fractionLength_step (hfraction : fraction ∈ 1 + fractions base)
    (hexponent : exponent ∈ 1 + exponents base) (rest : List Char) :
    fractionLength base (fraction ++ (exponent ++ rest)) = fraction.length ∨
      fraction.length < fractionLength base (fraction ++ (exponent ++ rest)) ∧ exponent = [] := by
  rcases hexponent with rfl | hexponent
  · have hle : fraction.length ≤ fractionLength base (fraction ++ ([] ++ rest)) := by
      rcases hfraction with rfl | hfraction
      · exact Nat.zero_le _
      · rw [fractionLength_append hfraction]
        exact Nat.le_add_right ..
    rcases Nat.lt_or_eq_of_le hle with hlt | heq
    · exact .inr ⟨hlt, rfl⟩
    · exact .inl heq.symm
  · left
    obtain ⟨hdigits, hnone⟩ := parts_of_exponent hexponent rest
    rcases hfraction with rfl | hfraction
    · exact hnone
    · rw [fractionLength_append hfraction, hdigits, Nat.add_zero]

theorem exponentLength_step (hexponent : exponent ∈ 1 + exponents base) (rest : List Char) :
    exponent.length ≤ exponentLength base (exponent ++ rest) := by
  rcases hexponent with rfl | hexponent
  · exact Nat.zero_le _
  · exact le_exponentLength hexponent rest

/-- The search passes the parts of a number. If it does not pass more, it finds the kind they make up.
-/
theorem measure_le (hbody : body ∈ digits base) (hfraction : fraction ∈ 1 + fractions base)
    (hexponent : exponent ∈ 1 + exponents base) (n : Nat) (rest : List Char) :
    n + (body ++ (fraction ++ exponent)).length <
        (measure base n (body ++ (fraction ++ (exponent ++ rest)))).2 ∨
      measure base n (body ++ (fraction ++ (exponent ++ rest))) =
        (kindOf base fraction exponent, n + (body ++ (fraction ++ exponent)).length) := by
  unfold measure
  rcases digitsLength_step hbody hfraction hexponent rest with hdigits | ⟨hdigits, rfl, rfl⟩
  · simp only [hdigits, List.drop_left]
    rcases fractionLength_step hfraction hexponent rest with hpart | ⟨hpart, rfl⟩
    · have hpower := exponentLength_step hexponent rest
      have hdrop : (body ++ (fraction ++ (exponent ++ rest))).drop (body.length + fraction.length) =
          exponent ++ rest := by
        rw [← List.append_assoc, ← List.length_append, List.drop_left]
      simp only [hpart, hdrop, List.length_append]
      rcases Nat.lt_or_eq_of_le hpower with hlt | heq
      · left
        omega
      · right
        rw [← heq]
        refine Prod.ext ?_ (by simp only [Nat.add_assoc])
        simp only [kindOf, Bool.and_eq_true, beq_iff_eq, List.length_eq_zero_iff]
    · left
      simp only [List.append_nil, List.length_append]
      omega
  · left
    simp only [List.append_nil]
    omega

-- ---------------------------------------------------------------------------
-- What the search passes is a text of the grammar
-- ---------------------------------------------------------------------------

theorem take_digitsLength_mem (base : Base) (text : List Char) :
    text.take (digitsLength base text) ∈ digits base :=
  mem_digits.mpr fun _ hc => of_mem_take_takeWhile hc

theorem take_digitsLength_mem_digitRuns (base : Base) {d : Char} (hd : base.hasDigit d = true)
    (text : List Char) :
    (d :: text).take (digitsLength base (d :: text)) ∈ digitRuns base := by
  have hdigits : digitsLength base (d :: text) = digitsLength base text + 1 := by
    rw [digitsLength, List.takeWhile_cons, hd, Bool.or_true, if_pos rfl, List.length_cons]
    rfl
  rw [hdigits, List.take_succ_cons]
  exact mem_digitRuns.mpr ⟨d, _, rfl, hd, take_digitsLength_mem base text⟩

theorem take_fractionLength_mem (hbase : base = .decimal ∨ base = .hex) (text : List Char) :
    text.take (fractionLength base text) ∈ 1 + fractions base := by
  unfold fractionLength
  split
  · rename_i d rest
    split
    · rename_i hd
      right
      rw [Nat.add_comm, List.take_succ_cons]
      have hmem : '.' :: (d :: rest).take (digitsLength base (d :: rest)) ∈
          oneOf (· == '.') * digitRuns base :=
        ⟨['.'], ⟨'.', rfl, rfl⟩, _, take_digitsLength_mem_digitRuns base hd rest, rfl⟩
      rcases hbase with rfl | rfl <;> exact hmem
    · exact .inl rfl
  · exact .inl rfl

/-- A power is a sign or none, and digits. It has a digit if it starts as one in base ten does. -/
theorem exists_power (text : List Char) :
    ∃ sign run, text.take (powerLength text) = sign ++ run ∧ sign ∈ 1 + signs ∧
      run ∈ digits .decimal ∧ (startsPower text = true → run ∈ digitRuns .decimal) := by
  unfold powerLength
  split
  · exact ⟨[], [], rfl, .inl rfl, mem_digits.mpr (by simp), fun h => absurd h (by decide)⟩
  · rename_i c rest
    split
    · rename_i hsign
      refine ⟨[c], rest.take (digitsLength .decimal rest), ?_, .inr ⟨c, hsign, rfl⟩,
        take_digitsLength_mem .decimal rest, fun hstarts => ?_⟩
      · rw [Nat.add_comm, List.take_succ_cons]
        rfl
      · -- a sign is no digit, so the digit stands behind it
        have hc : c.isDigit = false := by
          refine Bool.eq_false_iff.mpr fun hdigit => ?_
          rw [not_sign_of_digit (by rw [hdigit, Bool.or_true])] at hsign
          cases hsign
        simp only [startsPower, hc, hsign, Bool.false_or, Bool.true_and] at hstarts
        cases rest with
        | nil => cases hstarts
        | cons d rest => exact take_digitsLength_mem_digitRuns .decimal hstarts rest
    · rename_i hsign
      refine ⟨[], (c :: rest).take (digitsLength .decimal (c :: rest)), rfl, .inl rfl,
        take_digitsLength_mem .decimal _, fun hstarts => ?_⟩
      rw [startsPower, Bool.eq_false_iff.mpr hsign, Bool.false_and, Bool.or_false] at hstarts
      exact take_digitsLength_mem_digitRuns .decimal hstarts rest

theorem take_exponentLength_mem (base : Base) (text : List Char) :
    text.take (exponentLength base text) ∈ 1 + exponents base := by
  unfold exponentLength
  split
  · exact .inl rfl
  · rename_i c rest
    obtain ⟨sign, run, htake, hsign, hrun, hruns⟩ := exists_power rest
    have hpower : (c :: rest).take (1 + powerLength rest) = [c] ++ (sign ++ run) := by
      rw [Nat.add_comm, List.take_succ_cons, htake]
      rfl
    split
    · split
      · rename_i hletter
        rw [Bool.and_eq_true] at hletter
        right
        rw [hpower]
        exact ⟨[c], ⟨c, hletter.1, rfl⟩, _, ⟨sign, hsign, run, hruns hletter.2, rfl⟩, rfl⟩
      · exact .inl rfl
    · split
      · rename_i hletter
        right
        rw [hpower]
        exact ⟨[c], ⟨c, hletter, rfl⟩, _, ⟨sign, hsign, run, hrun, rfl⟩, rfl⟩
      · exact .inl rfl
    · exact .inl rfl

/-- What the search passes is made of parts, and they make up the kind it finds. -/
theorem exists_parts_of_measure (hbase : base = .decimal ∨ base = .hex) (n : Nat) (text : List Char) :
    ∃ fraction exponent, fraction ∈ 1 + fractions base ∧ exponent ∈ 1 + exponents base ∧
      (measure base n text).1 = kindOf base fraction exponent ∧
      ∃ m, (measure base n text).2 = n + m ∧
        text.take m = text.take (digitsLength base text) ++ (fraction ++ exponent) := by
  set behind := text.drop (digitsLength base text) with hbehind
  have hdrop : text.drop (digitsLength base text + fractionLength base behind) =
      behind.drop (fractionLength base behind) := by
    rw [hbehind, List.drop_drop]
  set far := behind.drop (fractionLength base behind) with hfar
  refine ⟨behind.take (fractionLength base behind), far.take (exponentLength base far),
    take_fractionLength_mem hbase behind, take_exponentLength_mem base far, ?_,
    digitsLength base text + (fractionLength base behind + exponentLength base far), ?_, ?_⟩
  · -- a part is empty if nothing is passed for it
    have hfraction := List.length_take_of_le (fractionLength_le base behind)
    have hexponent := List.length_take_of_le (exponentLength_le base far)
    simp only [measure, ← hbehind, hdrop, kindOf, Bool.and_eq_true, beq_iff_eq,
      ← List.length_eq_zero_iff, hfraction, hexponent]
  · simp only [measure, ← hbehind, hdrop, Nat.add_assoc]
  · rw [List.take_add, ← hbehind, List.take_add, ← hfar]

-- ---------------------------------------------------------------------------
-- The longest match
-- ---------------------------------------------------------------------------

/-- A number of a base with a marker starts with it. -/
theorem mem_integers_of_marker {whole : List Char} (hbase : base ≠ .decimal)
    (h : whole ∈ integers base) : ∃ body, whole = marker base ++ body ∧ body ∈ digits base := by
  cases base with
  | decimal => exact absurd rfl hbase
  | hex | octal | binary =>
    obtain ⟨start, rfl, body, hbody, rfl⟩ := h
    exact ⟨body, rfl, hbody⟩

theorem mem_one_of_mem_zero (h : text ∈ (1 + 0 : Language Char)) : text = [] := by
  rcases h with rfl | h
  · rfl
  · cases h

/-- Behind a marker no number of base ten is longer than the zero that the marker starts with. -/
theorem measure_of_marker {letter : Char} (hletter : letter ∈ ['x', 'o', 'b']) (rest : List Char) :
    (measure .decimal 0 ('0' :: letter :: rest)).2 < (ofText ('0' :: letter :: rest)).2 := by
  simp only [List.mem_cons, List.not_mem_nil, or_false] at hletter
  have hone : (measure .decimal 0 ('0' :: letter :: rest)).2 = 1 := by
    rcases hletter with rfl | rfl | rfl <;> rfl
  rw [hone]
  rcases hletter with rfl | rfl | rfl
  · simp only [ofText, measure]
    omega
  · simp only [ofText]
    omega
  · simp only [ofText]
    omega

/-- The search for a number passes every number that the source starts with. -/
theorem le_ofText {whole source : List Char} (h : IsParts base whole fraction exponent)
    (hstarts : whole ++ (fraction ++ exponent) <+: source) :
    (whole ++ (fraction ++ exponent)).length < (ofText source).2 ∨
      ofText source = (kindOf base fraction exponent, (whole ++ (fraction ++ exponent)).length) := by
  obtain ⟨hwhole, hfraction, hexponent⟩ := h
  obtain ⟨rest, rfl⟩ := hstarts
  have htext : ∀ body, body ++ (fraction ++ exponent) ++ rest =
      body ++ (fraction ++ (exponent ++ rest)) := by
    intro body
    simp only [List.append_assoc]
  cases base with
  | hex =>
    obtain ⟨body, rfl, hbody⟩ := mem_integers_of_marker (by decide) hwhole
    have hmeasure := measure_le hbody hfraction hexponent 2 rest
    rw [← htext] at hmeasure
    have hlength : (marker .hex ++ body ++ (fraction ++ exponent)).length =
        2 + (body ++ (fraction ++ exponent)).length := by
      rw [List.append_assoc, List.length_append]
      rfl
    rw [hlength]
    exact hmeasure
  | octal | binary =>
    obtain ⟨body, rfl, hbody⟩ := mem_integers_of_marker (by decide) hwhole
    obtain rfl := mem_one_of_mem_zero hfraction
    obtain rfl := mem_one_of_mem_zero hexponent
    have hdigits := digitsLength_append hbody rest
    rw [htext]
    simp only [marker, List.cons_append, List.nil_append, List.append_nil, List.length_cons, ofText,
      hdigits, kindOf_nil, Prod.mk.injEq, true_and]
    omega
  | decimal =>
    have hmeasure := measure_le (mem_digits_of_mem_digitRuns hwhole) hfraction hexponent 0 rest
    rw [← htext, Nat.zero_add] at hmeasure
    by_cases hmarker : ∃ letter ∈ ['x', 'o', 'b'], ∃ more,
        whole ++ (fraction ++ exponent) ++ rest = '0' :: letter :: more
    · obtain ⟨letter, hletter, more, hsource⟩ := hmarker
      have hless := measure_of_marker hletter more
      rw [hsource] at hmeasure ⊢
      left
      rcases hmeasure with hlt | heq
      · omega
      · rw [heq] at hless
        exact hless
    · rw [ofText_eq_measure fun letter hletter more hsource =>
        hmarker ⟨letter, hletter, more, hsource⟩]
      exact hmeasure

theorem take_marker (base : Base) (hbase : base ≠ .decimal) (n : Nat) (text : List Char) :
    (marker base ++ text).take (2 + n) = marker base ++ text.take n := by
  have htwo : 2 = (marker base).length := by
    cases base with
    | decimal => exact absurd rfl hbase
    | hex | octal | binary => rfl
  rw [htwo, List.take_length_add_append]

/-- What the search for a number passes is a number, of the kind it finds. -/
theorem take_mem_numerals {c : Char} (hc : c.isDigit = true) (text : List Char) :
    (c :: text).take (ofText (c :: text)).2 ∈ numerals (ofText (c :: text)).1 := by
  rw [mem_numerals_iff]
  by_cases hmarker : ∃ letter ∈ ['x', 'o', 'b'], ∃ rest, c :: text = '0' :: letter :: rest
  · obtain ⟨letter, hletter, rest, htext⟩ := hmarker
    rw [htext]
    simp only [List.mem_cons, List.not_mem_nil, or_false] at hletter
    rcases hletter with rfl | rfl | rfl
    · obtain ⟨fraction, exponent, hfraction, hexponent, hkind, m, hlength, htake⟩ :=
        exists_parts_of_measure (.inr rfl) 2 rest
      refine ⟨.hex, marker .hex ++ rest.take (digitsLength .hex rest), fraction, exponent,
        ⟨⟨_, rfl, _, take_digitsLength_mem .hex rest, rfl⟩, hfraction, hexponent⟩, ?_, hkind⟩
      rw [List.append_assoc, ← htake]
      show (marker .hex ++ rest).take (measure .hex 2 rest).2 = _
      rw [hlength, take_marker .hex (by decide)]
    · refine ⟨.octal, marker .octal ++ rest.take (digitsLength .octal rest), [], [],
        ⟨⟨_, rfl, _, take_digitsLength_mem .octal rest, rfl⟩, .inl rfl, .inl rfl⟩, ?_, rfl⟩
      rw [List.append_nil, List.append_nil]
      exact take_marker .octal (by decide) ..
    · refine ⟨.binary, marker .binary ++ rest.take (digitsLength .binary rest), [], [],
        ⟨⟨_, rfl, _, take_digitsLength_mem .binary rest, rfl⟩, .inl rfl, .inl rfl⟩, ?_, rfl⟩
      rw [List.append_nil, List.append_nil]
      exact take_marker .binary (by decide) ..
  · rw [ofText_eq_measure fun letter hletter rest htext => hmarker ⟨letter, hletter, rest, htext⟩]
    obtain ⟨fraction, exponent, hfraction, hexponent, hkind, m, hlength, htake⟩ :=
      exists_parts_of_measure (.inl rfl) 0 (c :: text)
    refine ⟨.decimal, (c :: text).take (digitsLength .decimal (c :: text)), fraction, exponent,
      ⟨take_digitsLength_mem_digitRuns .decimal hc text, hfraction, hexponent⟩, ?_, hkind⟩
    rw [hlength, Nat.zero_add, htake]

/-- The search for a number finds the longest one. -/
theorem isLongest_ofText {c : Char} (hc : c.isDigit = true) (text : List Char) :
    IsLongest (c :: text) (ofText (c :: text)).1 ((c :: text).take (ofText (c :: text)).2) where
  mem := take_mem_numerals hc text
  starts := List.take_prefix ..
  longest kind' text' hmem hstarts := by
    obtain ⟨base, whole, fraction, exponent, hparts, rfl, rfl⟩ := mem_numerals_iff.mp hmem
    rw [List.length_take_of_le (ofText_length_le _)]
    rcases le_ofText hparts hstarts with hlt | heq
    · exact .inl hlt
    · right
      rw [heq]
      exact ⟨List.prefix_iff_eq_take.mp hstarts, rfl⟩

end Number

namespace Lexer

variable {l : Lexer} {c : Char} {text : List Char}

/-- In code, a digit starts a number. -/
theorem lexeme_of_isDigit (hcode : l.context.isCode = true) (hrest : l.rest = c :: text)
    (hc : c.isDigit = true) :
    l.lexeme = .ok (l.plain (Number.ofText (c :: text)).1 (Number.ofText (c :: text)).2) := by
  rw [lexeme_of_isCode hcode, codeLexeme_of_isWordChar hrest, if_pos hc]
  exact Base.isWordChar_of_hasDigit (show Base.decimal.hasDigit c = true from hc)

theorem isLongest_of_isDigit (hcode : l.context.isCode = true) (hrest : l.rest = c :: text)
    (hc : c.isDigit = true) :
    ∃ x, l.lexeme = .ok x ∧ Number.IsLongest l.rest x.kind (l.rest.take x.length) :=
  ⟨_, lexeme_of_isDigit hcode hrest hc, by rw [hrest]; exact Number.isLongest_ofText hc text⟩

end Lexer

/-- **Numbers are the longest match of a grammar.** Where a digit stands in code, a lexeme is found, and it is
the longest number that the source starts with there, of the one kind that this number is of. So is every
token of code that starts with a digit, behind the trivia before it. -/
theorem numbers_are_longest_matches (l : Lexer) (hcode : l.context.isCode = true) :
    (∀ c text, l.rest = c :: text → c.isDigit = true →
      ∃ x, l.lexeme = .ok x ∧ Number.IsLongest l.rest x.kind (l.rest.take x.length)) ∧
    ∀ t behind c, l.next = (.ok t, behind) → t.text.head? = some c → c.isDigit = true →
      ∃ rest, l.rest = t.leading.text ++ rest ∧ Number.IsLongest rest t.kind t.text := by
  refine ⟨fun _ _ => Lexer.isLongest_of_isDigit hcode, fun t behind c hnext hhead hc => ?_⟩
  obtain ⟨here, x, hcut⟩ := Lexer.next_cut hnext
  have hstarts : t.text <+: here.rest := hcut.text_eq ▸ List.take_prefix ..
  obtain ⟨text, htext⟩ := List.head?_eq_some_iff.mp hhead
  obtain ⟨more, hmore⟩ := hstarts
  rw [htext] at hmore
  obtain ⟨y, hy, hlongest⟩ :=
    Lexer.isLongest_of_isDigit (hcut.here_context ▸ hcode) hmore.symm hc
  obtain rfl := Except.ok.inj (hcut.lexeme_eq.symm.trans hy)
  refine ⟨here.rest, hcut.leading.rest_eq, ?_⟩
  rw [hcut.kind_eq, hcut.text_eq]
  exact hlongest

/-- A blank, and a number with a fraction and an exponent that has no digits. The second dot and the digit
behind it are no part of the number. -/
theorem numbers_are_longest_matches_hex :
    (Lexer.ofText "0x1.8p+.a".toList).context.isCode = true ∧
    (∃ x, (Lexer.ofText "0x1.8p+.a".toList).lexeme = .ok x ∧
      Number.IsLongest "0x1.8p+.a".toList x.kind ("0x1.8p+.a".toList.take x.length)) ∧
    ∃ t behind rest, (Lexer.ofText " 0x1.8p+.a".toList).next = (.ok t, behind) ∧
      t.kind = .float ∧ t.text = "0x1.8p+".toList ∧ " 0x1.8p+.a".toList = t.leading.text ++ rest ∧
      Number.IsLongest rest t.kind t.text := by
  refine ⟨rfl, (numbers_are_longest_matches _ rfl).1 '0' _ rfl (by decide), ?_⟩
  have hfirst : (Lexer.ofText " 0x1.8p+.a".toList).next.1.toOption.map (fun t => (t.kind, t.text)) =
      some (.float, "0x1.8p+".toList) := by
    decide +kernel
  obtain ⟨t, ht, hparts⟩ := exists_ok_of_toOption_map hfirst
  obtain ⟨hkind, htext⟩ := Prod.mk.inj hparts
  have hnext : (Lexer.ofText " 0x1.8p+.a".toList).next = (.ok t, _) := Prod.ext ht rfl
  obtain ⟨rest, hrest, hlongest⟩ :=
    (numbers_are_longest_matches _ rfl).2 t _ '0' hnext (by rw [htext]; rfl) (by decide)
  exact ⟨t, _, rest, hnext, hkind, htext, hrest, hlongest⟩

end SwiftColoring
