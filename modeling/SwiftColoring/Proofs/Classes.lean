import SwiftColoring.Proofs.Progress

/-!
# The classes of characters

Which characters are trivia, which ones start a lexeme of code and which ones are garbage is said in three
places, character by character. The places agree: every character of code that is not taken as trivia
starts a lexeme that the search knows. So the kind that is left for other characters is never handed out,
although the search would give it if it met a blank, a backtick or garbage.

* `startsToken_of_class` — a class without blanks and garbage starts tokens.
* `Lexer.startsToken_of_finds` — whatever is found in code starts with a character that starts a token.
* `Lexer.lexeme_eq_unknown_iff` — where the search knows no lexeme.
* `every_character_is_recognized` — the whole statement.
-/

namespace SwiftColoring

-- ---------------------------------------------------------------------------
-- Characters that start a token
-- ---------------------------------------------------------------------------

/-- The characters besides garbage that are trivia wherever they stand in code. -/
def blankChars : List Char := [' ', '\t', '\n', '\r', '\x0b', '\x0c', '`']

section

variable {c : Char} {p : Char → Bool}

/-- A class that holds none of the blanks, of which the character is no garbage. -/
theorem startsToken_of_class (hp : ∀ c ∈ blankChars, p c = false) (hc : p c = true)
    (hgarbage : isGarbage c = false) : startsToken c = true := by
  have hblank : c ∉ blankChars := by
    intro hmem
    rw [hp c hmem] at hc
    cases hc
  simp only [blankChars, List.mem_cons, List.not_mem_nil, or_false, not_or] at hblank
  simp [startsToken, isWhitespace, hblank, hgarbage]

theorem startsToken_of_isDigit (hc : c.isDigit = true) : startsToken c = true :=
  startsToken_of_class (List.forall_iff_forall_mem.mp (by decide)) hc (by simp [isGarbage, hc])

theorem startsToken_of_isWordStart (hc : isWordStart c = true) : startsToken c = true :=
  startsToken_of_class (List.forall_iff_forall_mem.mp (by decide)) hc (by simp [isGarbage, hc])

theorem startsToken_of_isOperatorChar (hc : isOperatorChar c = true) : startsToken c = true :=
  startsToken_of_class (List.forall_iff_forall_mem.mp (by decide)) hc (by simp [isGarbage, hc])

theorem startsToken_of_markKind? (hc : (Lexer.markKind? c).isSome = true) : startsToken c = true := by
  unfold Lexer.markKind? at hc
  split at hc
  all_goals first | rfl | cases hc

theorem startsToken_eq_false_iff :
    startsToken c = false ↔ isWhitespace c = true ∨ c = '`' ∨ isGarbage c = true := by
  simp only [startsToken, Bool.not_eq_false', Bool.or_eq_true, beq_iff_eq, or_assoc]

/-- Where a token can start, trivia starts only with a comment or with the line of a script. -/
theorem GapStart.ofText_of_startsToken (hc : startsToken c = true) (hslash : c ≠ '/') (hsharp : c ≠ '#')
    (trailing atStart : Bool) (text : List Char) :
    ofText trailing atStart (c :: text) = .nothing := by
  have hblank : ∀ d ∈ blankChars, c ≠ d := by
    rintro d hd rfl
    have hnot : ∀ d ∈ blankChars, startsToken d = false := List.forall_iff_forall_mem.mp (by decide)
    rw [hnot c hd] at hc
    cases hc
  have hgarbage : isGarbage c = false := by
    refine Bool.eq_false_iff.mpr fun hgarbage => ?_
    rw [startsToken_eq_false_iff.mpr (.inr (.inr hgarbage))] at hc
    cases hc
  have hunit : RunUnit.ofText? (c :: text) = none := by
    by_contra hsome
    obtain ⟨u, hu⟩ := Option.ne_none_iff_exists'.mp hsome
    have hprefix := RunUnit.text_isPrefix_of_ofText? hu
    -- every unit starts with one of the blanks
    cases u
    all_goals exact hblank _ (by decide) (List.cons_prefix_cons.mp hprefix).1.symm
  unfold ofText
  rw [hunit]
  simp only
  split
  · exact absurd (List.cons.inj ‹_›).1 hslash
  · exact absurd (List.cons.inj ‹_›).1 hslash
  · exact absurd (List.cons.inj ‹_›).1 hsharp
  · rename_i heq
    rw [← (List.cons.inj heq).1, hgarbage, if_neg Bool.false_ne_true]
  · rfl

end

namespace Lexer

variable {l : Lexer} {c : Char} {text : List Char}

-- ---------------------------------------------------------------------------
-- What the search for a lexeme knows
-- ---------------------------------------------------------------------------

/-- Whatever is found in code, failures included, starts with a character that starts a token, unless it
is of unknown kind. -/
theorem startsToken_of_finds {found : Except Interruption Lexeme} (h : l.Finds found)
    (hcode : l.context.isCode = true) (hrest : l.rest = c :: text)
    (hknown : found ≠ .ok (l.plain .unknown 1)) : startsToken c = true := by
  have hhead : ∀ {d : Char} {more : List Char}, l.rest = d :: more → c = d := by
    intro d more hd
    exact (List.cons.inj (hrest.symm.trans hd)).1
  cases h with
  | closingQuote hcontext | backslash hcontext | segment hcontext | openString hcontext
  | interpolationParen hcontext =>
    -- these are parts of literals
    rw [hcontext] at hcode
    cases hcode
  | eof _ hended | openInterpolation _ hended =>
    rw [hended] at hrest
    cases hrest
  | leftParen _ hd | interpolationEnd _ hd | rightParen _ _ hd | openingQuote _ hd | rawString _ hd
  | openRawString _ hd | poundKeyword _ hd | pound _ hd | dollar _ hd | postfixQuestion _ hd =>
    rw [hhead hd]
    rfl
  | mark _ hd hmark =>
    rw [hhead hd]
    exact startsToken_of_markKind? (by rw [hmark]; rfl)
  | number _ hd hdigit =>
    rw [hhead hd]
    exact startsToken_of_isDigit hdigit
  | word _ hd hword =>
    rw [hhead hd]
    exact startsToken_of_isWordStart hword
  | angleBracket _ hd hangle =>
    rw [hhead hd]
    rcases cases_of_angleBracket? hangle with ⟨rfl, -⟩ | ⟨rfl, -⟩ <;> rfl
  | operator _ hd _ hoperator =>
    rw [hhead hd]
    rcases hoperator with rfl | hoperator
    · rfl
    · exact startsToken_of_isOperatorChar hoperator
  | unknown => exact absurd rfl hknown

/-- In code, the search knows no lexeme exactly at the characters that are trivia. -/
theorem lexeme_eq_unknown_iff (hcode : l.context.isCode = true) (hrest : l.rest = c :: text) :
    l.lexeme = .ok (l.plain .unknown 1) ↔ isWhitespace c = true ∨ c = '`' ∨ isGarbage c = true := by
  rw [← startsToken_eq_false_iff]
  constructor
  · intro hx
    by_contra hstarts
    rw [Bool.not_eq_false] at hstarts
    refine kind_ne_unknown_of_startsToken hx (fun d more _ hd => ?_) rfl
    rw [← (List.cons.inj (hrest.symm.trans hd)).1]
    exact hstarts
  · intro hstarts
    by_contra hknown
    rw [startsToken_of_finds l.finds_lexeme hcode hrest hknown] at hstarts
    cases hstarts

/-- Behind the trivia before it, a lexeme is of a known kind. -/
theorem kind_ne_unknown_of_takeLeading {here : Lexer} {leading : Trivia} {x : Lexeme}
    (h : l.takeLeading = (.ok leading, here)) (hx : here.lexeme = .ok x) : x.kind ≠ .unknown := by
  obtain ⟨hpasses, hstop, -⟩ := takeLeading_ok h
  refine kind_ne_unknown_of_startsToken hx fun c text hcode hrest => ?_
  have hnothing := hstop (by rwa [hpasses.eq_advance, advance_context] at hcode)
  rw [hrest] at hnothing
  exact startsToken_of_stop hnothing

end Lexer

/-- **Every character is recognized.** However many calls are made, past failures and past the end of the
source, none hands out a token of unknown kind: behind the trivia before it, each lexeme is of a known
kind. This is so because the search for a lexeme knows all characters but those that are trivia. -/
theorem every_character_is_recognized :
    (∀ source n t, (Lexer.ofText source).answer n = .ok t → t.kind ≠ .unknown) ∧
    (∀ (l here : Lexer) leading x, l.takeLeading = (.ok leading, here) → here.lexeme = .ok x →
      x.kind ≠ .unknown) ∧
    ∀ (l : Lexer) c text, l.context.isCode = true → l.rest = c :: text →
      (l.lexeme = .ok (l.plain .unknown 1) ↔ isWhitespace c = true ∨ c = '`' ∨ isGarbage c = true) := by
  refine ⟨?_, fun _ _ _ _ => Lexer.kind_ne_unknown_of_takeLeading, fun _ _ _ => Lexer.lexeme_eq_unknown_iff⟩
  intro source n t hanswer
  obtain ⟨here, x, hcut⟩ := Lexer.next_cut (Prod.ext hanswer rfl)
  exact hcut.kind_ne_unknown

/-- A raw string that does not end on its line, and behind the break a null character, a section sign and a
letter. The first call fails, and the second one takes the two characters as trivia, although a search for
a lexeme at the null character finds one of unknown kind. -/
theorem every_character_is_recognized_null :
    (∃ t, (Lexer.ofText "#\"a\n\x00§x".toList).answer 1 = .ok t ∧ t.text = ['x'] ∧ t.kind ≠ .unknown) ∧
    (∃ here leading x, (Lexer.ofText "\x00§x".toList).takeLeading = (.ok leading, here) ∧
      here.lexeme = .ok x ∧ x.kind ≠ .unknown) ∧
    (Lexer.ofText ['\x00']).lexeme = .ok ((Lexer.ofText ['\x00']).plain .unknown 1) := by
  refine ⟨?_, ?_, ?_⟩
  · have htext : ((Lexer.ofText "#\"a\n\x00§x".toList).answer 1).toOption.map Token.text = some ['x'] := by
      decide +kernel
    obtain ⟨t, ht, htext⟩ := exists_ok_of_toOption_map htext
    exact ⟨t, ht, htext, every_character_is_recognized.1 _ 1 t ht⟩
  · have htrivia : (Lexer.ofText "\x00§x".toList).takeLeading.1.toOption.map Trivia.text =
        some ['\x00', '§'] := by
      decide +kernel
    obtain ⟨leading, hleading, -⟩ := exists_ok_of_toOption_map htrivia
    have hlexeme : (Lexer.ofText "\x00§x".toList).takeLeading.2.lexeme =
        .ok ⟨.identifier, 1, [.code], .empty⟩ := by
      decide +kernel
    have htakes : (Lexer.ofText "\x00§x".toList).takeLeading = (.ok leading, _) := Prod.ext hleading rfl
    exact ⟨_, leading, _, htakes, hlexeme, every_character_is_recognized.2.1 _ _ _ _ htakes hlexeme⟩
  · exact (every_character_is_recognized.2.2 _ '\x00' [] rfl rfl).mpr (.inr (.inr rfl))

end SwiftColoring
