import SwiftColoring.Proofs.Lexeme
import SwiftColoring.Proofs.Place
import SwiftColoring.Proofs.Reach

/-!
# Reads by index

The lexer takes most of what it looks at off the text ahead, where nothing can go wrong. But what
stands before a word or an operator, what stands before a sign among generic arguments, the word
behind blanks, the signs behind a number sign and the texts of tokens and of trivia are read in the
source by their indexes, and there is no such character or stretch where an index is out of range.
Here these reads are spelled out, with no answer where they leave the source, and so is the search
for a lexeme with them. Wherever a cursor stands in the source, they have an answer, and it is what
the lexer finds.

* `charBefore?`, `suffixAt?`, `stretch?` — the reads that can fail.
* `GenericArguments.marksAt?_eq` — the search for generic arguments never looks before the source.
* `Word.kindAt?_eq`, `Operator.isLeftBoundAt?_eq` — neither do words and operators.
* `Lexer.lexemeAt?_eq` — no read in the search for a lexeme is out of range.
* `cutAt?_of_isPrefix` — nor is one for the text of trivia.
-/

namespace SwiftColoring

-- ---------------------------------------------------------------------------
-- Reads that can fail
-- ---------------------------------------------------------------------------

/-- The character so many places before an index; none if it is out of range. -/
def charBefore? (source : List Char) (index back : Nat) : Option Char :=
  if back ≤ index then source[index - back]? else none

/-- The source from an index on; none if the index is out of range. -/
def suffixAt? (source : List Char) (index : Nat) : Option (List Char) :=
  if index ≤ source.length then some (source.drop index) else none

/-- The stretch of the source between two indexes; none if they are out of range or out of order. -/
def stretch? (source : List Char) (start stop : Nat) : Option (List Char) :=
  if start ≤ stop ∧ stop ≤ source.length then some ((source.drop start).take (stop - start)) else none

section Reads

variable {source : List Char} {index : Nat}

/-- Right behind a character that one is read. -/
theorem charBefore?_succ (source : List Char) (index : Nat) :
    charBefore? source (index + 1) 1 = source[index]? :=
  if_pos (Nat.le_add_left 1 index)

theorem suffixAt?_of_le (h : index ≤ source.length) :
    suffixAt? source index = some (source.drop index) :=
  if_pos h

/-- A stretch of a length that is left behind its start. -/
theorem stretch?_of_le {n : Nat} (hindex : index ≤ source.length)
    (hn : n ≤ (source.drop index).length) :
    stretch? source index (index + n) = some ((source.drop index).take n) := by
  rw [List.length_drop] at hn
  have hstop : index + n ≤ source.length := by omega
  rw [stretch?, if_pos ⟨Nat.le_add_right .., hstop⟩, Nat.add_sub_cancel_left]

/-- The source is told character by character from an index on. -/
theorem drop_of_getElem? {c : Char} (h : source[index]? = some c) :
    source.drop index = c :: source.drop (index + 1) := by
  obtain ⟨hlt, rfl⟩ := List.getElem?_eq_some_iff.mp h
  exact List.drop_eq_getElem_cons hlt

end Reads

namespace Cursor.IsIn

variable {source : List Char} {c : Cursor} {d : Char} {text : List Char}

theorem getElem?_index (h : c.IsIn source) : source[c.index]? = c.rest.head? := by
  rw [← h.drop_index, List.head?_drop]

/-- Behind the character at a cursor the source goes on with what is behind it. -/
theorem drop_index_succ (h : c.IsIn source) (hrest : c.rest = d :: text) :
    source.drop (c.index + 1) = text := by
  rw [← List.drop_drop, h.drop_index, hrest]
  rfl

/-- Behind a cursor that has a character ahead, the source goes on or ends. -/
theorem index_succ_le (h : c.IsIn source) (hrest : c.rest = d :: text) :
    c.index + 1 ≤ source.length := by
  rw [← h.split, h.index_eq, hrest, List.length_append, List.length_reverse, List.length_cons]
  omega

/-- What a cursor has passed is found by counting back from it. -/
theorem charBefore? (h : c.IsIn source) (n : Nat) :
    charBefore? source c.index (n + 1) = c.before[n]? := by
  unfold SwiftColoring.charBefore?
  rw [h.index_eq]
  by_cases hn : n + 1 ≤ c.before.length
  · have hback : c.before.length - (n + 1) < c.before.reverse.length := by
      rw [List.length_reverse]
      omega
    rw [if_pos hn, ← h.split, List.getElem?_append_left hback, List.getElem?_reverse (by omega)]
    congr 1
    omega
  · rw [if_neg hn, List.getElem?_eq_none (by omega)]

end Cursor.IsIn

-- ---------------------------------------------------------------------------
-- Operators
-- ---------------------------------------------------------------------------

namespace Operator

/-- Whether an operator that starts at the index is bound on its left. -/
def isLeftBoundAt? (source : List Char) (start : Nat) : Option Bool :=
  if start = 0 then some false
  else do
    let c ← charBefore? source start 1
    if isWhitespace c || ['(', '[', '{', ',', ';', ':'].contains c then some false
    else if c != '/' || start < 2 then some true
    else (charBefore? source start 2).map (· != '*')

/-- Whether an operator that stops before the index is bound on its right; it may stop at the end. -/
def isRightBoundAt (source : List Char) (stop : Nat) : Bool :=
  match source[stop]? with
  | none => false
  | some c =>
    if isWhitespace c || [')', ']', '}', ',', ';', ':'].contains c then false
    else if c == '/' then !source[stop + 1]?.any ['/', '*'].contains
    else true

/-- No read before an operator is out of range. -/
theorem isLeftBoundAt?_eq {source : List Char} {c : Cursor} (h : c.IsIn source) :
    isLeftBoundAt? source c.index = some (isLeftBound c.before) := by
  have hone := h.charBefore? 0
  have htwo := h.charBefore? 1
  have hindex := h.index_eq
  unfold isLeftBoundAt? isLeftBound
  cases hbefore : c.before with
  | nil =>
    rw [hbefore] at hindex
    exact if_pos hindex
  | cons d before =>
    rw [hbefore] at hone htwo hindex
    rw [if_neg (by rw [hindex]; simp), hone]
    simp only [List.getElem?_cons_zero, Option.bind_eq_bind, Option.bind_some]
    split
    · rfl
    rename_i hblank
    by_cases hslash : d = '/'
    · subst hslash
      cases before with
      | nil =>
        rw [if_pos (by rw [hindex]; rfl)]
        rfl
      | cons e before =>
        rw [if_neg (by rw [hindex]; simp), htwo]
        rfl
    · rw [if_pos (by simp [hslash]), if_neg (by simpa using hslash)]

/-- What is behind an operator may be missing, and then binds nothing. -/
theorem isRightBoundAt_eq (source : List Char) (stop : Nat) :
    isRightBoundAt source stop = isRightBound (source.drop stop) := by
  unfold isRightBoundAt isRightBound
  cases hstop : source[stop]? with
  | none => rw [List.drop_eq_nil_of_le (List.getElem?_eq_none_iff.mp hstop)]
  | some c =>
    rw [drop_of_getElem? hstop]
    simp only [List.head?_drop]

end Operator

-- ---------------------------------------------------------------------------
-- Words
-- ---------------------------------------------------------------------------

/-- The index of the first character that is no blank, from an index on. -/
def blanksEnd (source : List Char) (index : Nat) : Nat :=
  if _h : source[index]?.any isWhitespace then blanksEnd source (index + 1) else index
termination_by source.length - index
decreasing_by
  have hlt : index < source.length := by
    refine Nat.lt_of_not_le fun hge => ?_
    rw [List.getElem?_eq_none hge] at _h
    cases _h
  omega

/-- From the first character that is no blank on, the source is what it is without the blanks. -/
theorem drop_blanksEnd (source : List Char) (index : Nat) :
    source.drop (blanksEnd source index) = (source.drop index).dropWhile isWhitespace := by
  fun_induction blanksEnd source index with
  | case1 index hblank ih =>
    cases hindex : source[index]? with
    | none =>
      rw [hindex] at hblank
      cases hblank
    | some c =>
      rw [hindex] at hblank
      rw [ih, drop_of_getElem? hindex, List.dropWhile_cons_of_pos (p := isWhitespace) hblank]
  | case2 index hother =>
    cases hindex : source[index]? with
    | none => rw [List.drop_eq_nil_of_le (List.getElem?_eq_none_iff.mp hindex), List.dropWhile_nil]
    | some c =>
      rw [hindex] at hother
      rw [drop_of_getElem? hindex, List.dropWhile_cons_of_neg (p := isWhitespace) hother]

namespace Word

/-- The word at the index, if there is one. -/
def at? (source : List Char) (index : Nat) : Option (Option (List Char)) :=
  match source[index]? with
  | none => some none
  | some c =>
    if isWordStart c then (suffixAt? source index).map fun text => some (text.takeWhile isWordChar)
    else some none

/-- The character stands directly before the index. -/
def followsAt? (source : List Char) (start : Nat) (c : Char) : Option Bool :=
  if start = 0 then some false else (charBefore? source start 1).map (· == c)

/-- What follows the index makes a keyword of an accessor or modifier before it. -/
def actsAsKeywordAt? (source word : List Char) (stop : Nat) : Option Bool :=
  let next := blanksEnd source stop
  match source[next]? with
  | none => some false
  | some c =>
    if c == '{' || c == '}' then some (isAccessor word)
    else if c == '(' then some (isAccessor word && word != "get".toList)
    else (at? source next).map fun behind => behind.any followsModifier

/-- The kind of the word between two indexes. -/
def kindAt? (source : List Char) (start stop : Nat) : Option Kind := do
  if ← followsAt? source start '`' then return .identifier
  let word ← stretch? source start stop
  match Keyword.ofSpelling? word with
  | some k => return .keyword k
  | none =>
    if ← followsAt? source start '.' then return .identifier
    if !(isAccessor word || isModifier word) then return .identifier
    if ← actsAsKeywordAt? source word stop then return .contextualKeyword
    return .identifier

variable {source : List Char} {index : Nat}

theorem leading_eq_nil_of_not_isWordStart {c : Char} {text : List Char}
    (h : isWordStart c = false) : leading (c :: text) = [] := by
  rw [leading, h]
  rfl

/-- A word is read wherever there is one, and there alone. -/
theorem at?_eq (source : List Char) (index : Nat) : at? source index =
    some (if leading (source.drop index) = [] then none else some (leading (source.drop index))) := by
  unfold at?
  cases hindex : source[index]? with
  | none =>
    rw [List.drop_eq_nil_of_le (List.getElem?_eq_none_iff.mp hindex)]
    rfl
  | some c =>
    have hle : index ≤ source.length := Nat.le_of_lt (List.getElem?_eq_some_iff.mp hindex).1
    rw [suffixAt?_of_le hle, drop_of_getElem? hindex]
    by_cases hc : isWordStart c = true
    · have hword : leading (c :: source.drop (index + 1)) =
          (c :: source.drop (index + 1)).takeWhile isWordChar := if_pos hc
      have hne : (c :: source.drop (index + 1)).takeWhile isWordChar ≠ [] := by
        rw [List.takeWhile_cons_of_pos (isWordChar_of_isWordStart hc)]
        exact List.cons_ne_nil _ _
      simp only [hc, hword, if_true, if_neg hne, Option.map_some]
    · rw [leading_eq_nil_of_not_isWordStart (Bool.eq_false_iff.mpr hc)]
      exact if_neg hc

/-- The character before a word is read only where there is one. -/
theorem followsAt?_eq {c : Cursor} (h : c.IsIn source) (d : Char) :
    followsAt? source c.index d = some (c.before.head? == some d) := by
  have hone := h.charBefore? 0
  have hindex := h.index_eq
  unfold followsAt?
  cases hbefore : c.before with
  | nil =>
    rw [hbefore] at hindex
    exact if_pos hindex
  | cons e before =>
    rw [hbefore] at hone hindex
    rw [if_neg (by rw [hindex]; simp), hone]
    rfl

/-- No read behind a word is out of range. -/
theorem actsAsKeywordAt?_eq (source word : List Char) (stop : Nat) :
    actsAsKeywordAt? source word stop = some (actsAsKeyword word (source.drop stop)) := by
  have hdrop := drop_blanksEnd source stop
  unfold actsAsKeywordAt? actsAsKeyword
  rw [← hdrop]
  simp only
  cases hnext : source[blanksEnd source stop]? with
  | none =>
    rw [List.drop_eq_nil_of_le (List.getElem?_eq_none_iff.mp hnext)]
  | some c =>
    rw [at?_eq, drop_of_getElem? hnext]
    simp only
    split
    · rfl
    split
    · rfl
    · -- where no word comes next, nothing makes a keyword of the one before
      split
      · rename_i hnone
        rw [hnone]
        rfl
      · rfl

/-- No read for the kind of a word is out of range. -/
theorem kindAt?_eq {c : Cursor} {n : Nat} (h : c.IsIn source) (hn : n ≤ c.rest.length) :
    kindAt? source c.index (c.index + n) =
      some (kind c.before.head? (c.rest.take n) (c.rest.drop n)) := by
  have hword : stretch? source c.index (c.index + n) = some (c.rest.take n) := by
    rw [stretch?_of_le h.index_le (by rw [h.drop_index]; exact hn), h.drop_index]
  have hbehind : source.drop (c.index + n) = c.rest.drop n := by
    rw [← List.drop_drop, h.drop_index]
  unfold kindAt? kind
  simp only [followsAt?_eq h, hword, actsAsKeywordAt?_eq, hbehind, Option.bind_eq_bind,
    Option.bind_some, Option.pure_def]
  split
  · rfl
  cases Keyword.ofSpelling? (c.rest.take n) with
  | some k => rfl
  | none =>
    cases hmember : c.before.head? == some '.' <;>
      cases hmodifier : (isAccessor (c.rest.take n) || isModifier (c.rest.take n)) <;>
      cases hacts : actsAsKeyword (c.rest.take n) (c.rest.drop n) <;>
      simp [bne, hmember]

end Word

-- ---------------------------------------------------------------------------
-- Generic arguments
-- ---------------------------------------------------------------------------

namespace GenericArguments

/-- The brackets of generic arguments, searched for from an index on. What stands before a closing
bracket is looked up; what stands behind it may be missing. -/
def marksAt? (source : List Char) (nested index : Nat) : Option (Option AngleMarks) :=
  match _h : source[index]? with
  | none => some none
  | some c =>
    if c == '<' then
      (marksAt? source (nested + 1) (index + 1)).map fun marks => marks.map (·.withOpener index)
    else if c == '>' then
      match charBefore? source index 1 with
      | none => none
      | some previous =>
        if previous == '-' then marksAt? source nested (index + 1)
        else
          match nested with
          | 0 => some (if source[index + 1]?.all followers.contains then some ⟨[], [index]⟩ else none)
          | nested + 1 =>
            (marksAt? source nested (index + 1)).map fun marks => marks.map (·.withCloser index)
    else if (c == '-' && source[index + 1]? == some '>') || typeChars.contains c || isWordChar c then
      marksAt? source nested (index + 1)
    else some none
termination_by source.length - index
decreasing_by
  all_goals
    have hlt := (List.getElem?_eq_some_iff.mp _h).1
    omega

/-- The brackets of the generic arguments that a less-than sign at the index opens, if it opens some. -/
def at? (source : List Char) (start : Nat) : Option (Option AngleMarks) :=
  if (charBefore? source start 1).any isWordChar then marksAt? source 0 (start + 1) else some none

/-- The turn of the search at one character. -/
theorem marks?_cons (nested : Nat) (previous : Char) (index : Nat) (c : Char) (rest : List Char) :
    marks? nested previous index (c :: rest) =
      if c == '<' then (marks? (nested + 1) c (index + 1) rest).map (·.withOpener index)
      else if c == '>' && previous != '-' then
        match nested with
        | 0 => if isFollowedWell rest then some ⟨[], [index]⟩ else none
        | nested + 1 => (marks? nested c (index + 1) rest).map (·.withCloser index)
      else if c == '>' || (c == '-' && rest.head? == some '>') || typeChars.contains c || isWordChar c then
        marks? nested c (index + 1) rest
      else none := by
  cases nested <;> rw [marks?]

/-- The search never looks before the source, since it starts behind a character. -/
theorem marksAt?_eq {source : List Char} {nested index : Nat} {previous : Char}
    (hprevious : charBefore? source index 1 = some previous) :
    marksAt? source nested index = some (marks? nested previous index (source.drop index)) := by
  fun_induction marksAt? source nested index generalizing previous with
  | case1 nested index hnone =>
    rw [List.drop_eq_nil_of_le (List.getElem?_eq_none_iff.mp hnone)]
    rfl
  | case2 nested index c hc hopen ih =>
    rw [ih ((charBefore?_succ ..).trans hc), drop_of_getElem? hc, marks?_cons, if_pos hopen]
    rfl
  | case3 nested index c hc hopen hclose hnone =>
    rw [hnone] at hprevious
    cases hprevious
  | case4 nested index c hc hopen hclose before hbefore hminus ih =>
    -- the sign of an arrow
    obtain rfl : before = previous := Option.some.inj (hbefore.symm.trans hprevious)
    rw [ih ((charBefore?_succ ..).trans hc), drop_of_getElem? hc, marks?_cons, if_neg hopen,
      if_neg (by simp [eq_of_beq hminus]), if_pos (by simp [hclose])]
  | case5 index c hc hopen hclose before hbefore hminus =>
    obtain rfl : before = previous := Option.some.inj (hbefore.symm.trans hprevious)
    have hcloses : (c == '>' && before != '-') = true := by simpa [hclose] using hminus
    rw [drop_of_getElem? hc, marks?_cons, if_neg hopen, if_pos hcloses, isFollowedWell,
      List.head?_drop]
  | case6 index c hc hopen hclose before hbefore hminus nested ih =>
    obtain rfl : before = previous := Option.some.inj (hbefore.symm.trans hprevious)
    have hcloses : (c == '>' && before != '-') = true := by simpa [hclose] using hminus
    rw [ih ((charBefore?_succ ..).trans hc), drop_of_getElem? hc, marks?_cons, if_neg hopen,
      if_pos hcloses]
    rfl
  | case7 nested index c hc hopen hclose hallowed ih =>
    rw [ih ((charBefore?_succ ..).trans hc), drop_of_getElem? hc, marks?_cons, if_neg hopen,
      if_neg (by simp [hclose]), List.head?_drop, Bool.eq_false_iff.mpr hclose, Bool.false_or,
      if_pos hallowed]
  | case8 nested index c hc hopen hclose hother =>
    rw [drop_of_getElem? hc, marks?_cons, if_neg hopen, if_neg (by simp [hclose]), List.head?_drop,
      Bool.eq_false_iff.mpr hclose, Bool.false_or, if_neg hother]

/-- No read in the search for generic arguments is out of range. -/
theorem at?_eq {source : List Char} {c : Cursor} {text : List Char} (h : c.IsIn source)
    (hrest : c.rest = '<' :: text) :
    at? source c.index = some (ofText? c.before.head? c.index text) := by
  have hone : charBefore? source c.index 1 = c.before.head? := by
    rw [h.charBefore? 0, List.head?_eq_getElem?]
  have hsign : charBefore? source (c.index + 1) 1 = some '<' := by
    rw [charBefore?_succ, h.getElem?_index, hrest]
    rfl
  unfold at? ofText?
  rw [hone, marksAt?_eq hsign, h.drop_index_succ hrest]
  split <;> rfl

end GenericArguments

-- ---------------------------------------------------------------------------
-- The search for a lexeme
-- ---------------------------------------------------------------------------

namespace Lexer

/-- The angle bracket at the cursor, if the character is one. -/
def angleBracketAt? (source : List Char) (l : Lexer) (c : Char) : Option (Option (Kind × AngleMarks)) :=
  if c == '<' then
    if l.angles.openers.contains l.index then some (some (.leftAngle, l.angles))
    else
      (GenericArguments.at? source l.index).map fun found =>
        found.map fun marks => (.leftAngle, l.angles.append marks)
  else if c == '>' && l.angles.closers.contains l.index then some (some (.rightAngle, l.angles))
  else some none

/-- An angle bracket, or an operator that starts with the character. -/
def operatorLexemeAt? (source : List Char) (l : Lexer) (c : Char) : Option Lexeme := do
  match ← l.angleBracketAt? source c with
  | some (kind, angles) => return { l.plain kind 1 with angles }
  | none =>
    let left ← Operator.isLeftBoundAt? source l.index
    if c == '?' && left then return l.plain .postfixQuestion 1
    let length := 1 + Operator.extension (c == '.') l.angles.closers (l.index + 1)
      (source.drop (l.index + 1))
    let text ← stretch? source l.index (l.index + length)
    return l.plain (Operator.kind text left (Operator.isRightBoundAt source (l.index + length))) length

/-- The word at the cursor. -/
def wordLexemeAt? (source : List Char) (l : Lexer) : Option Lexeme := do
  let length := 1 + ((source.drop (l.index + 1)).takeWhile isWordChar).length
  let kind ← Word.kindAt? source l.index (l.index + length)
  return l.plain kind length

/-- A pound keyword or a lone number sign. -/
def poundWordAt? (source : List Char) (l : Lexer) : Option Lexeme := do
  match ← Word.at? source (l.index + 1) with
  | none => return l.plain .pound 1
  | some word =>
    match PoundKeyword.ofSpelling? word with
    | some k => return l.plain (.poundKeyword k) (1 + word.length)
    | none => return l.plain .pound 1

/-- A raw string, a pound keyword or a lone number sign. -/
def poundLexemeAt? (source : List Char) (l : Lexer) : Option (Except Interruption Lexeme) := do
  let signs ← suffixAt? source (l.index + 1)
  let hashes := (signs.takeWhile (· == '#')).length
  match source[l.index + 1 + hashes]? with
  | some '"' =>
    let extent := RawString.extent (hashes + 1) (source.drop (l.index + 1 + hashes + 1))
    return if extent.closed then .ok (l.plain .rawString extent.length)
      else .error ⟨.openRawString l.pos, extent.length⟩
  | _ => (l.poundWordAt? source).map .ok

/-- The lexeme at the cursor, with what is read by an index read in the source. The other lexemes
look at the text ahead alone, character by character. -/
def lexemeAt? (source : List Char) (l : Lexer) : Option (Except Interruption Lexeme) :=
  match source[l.index]? with
  | none => some l.lexeme
  | some c =>
    if !l.context.isCode then some l.lexeme
    else if c == '#' then l.poundLexemeAt? source
    else if c == '.' || isOperatorChar c then (l.operatorLexemeAt? source c).map .ok
    else if !c.isDigit && isWordStart c then (l.wordLexemeAt? source).map .ok
    else some l.lexeme

variable {source : List Char} {l : Lexer} {c : Char} {text : List Char}

/-- Where a number sign stands in code, what starts with it is looked for. -/
theorem codeLexeme_of_pound (hrest : l.rest = '#' :: text) : l.codeLexeme = l.poundLexeme text := by
  unfold codeLexeme
  rw [hrest]
  rfl

/-- Where an operator character or a dot stands in code, an operator or angle bracket is found. -/
theorem codeLexeme_of_operator (hrest : l.rest = c :: text)
    (hc : (c == '.' || isOperatorChar c) = true) : l.codeLexeme = .ok (l.operatorLexeme c text) := by
  have hchars : ∀ d ∈ '.' :: operatorChars, (!d.isDigit && !isWordStart d) = true :=
    List.all_eq_true.mp (by decide)
  obtain ⟨hdigit, hstart⟩ : c.isDigit = false ∧ isWordStart c = false := by
    rw [Bool.or_eq_true, beq_iff_eq, isOperatorChar, List.contains_iff_mem] at hc
    simpa only [Bool.and_eq_true, Bool.not_eq_true'] using hchars c (List.mem_cons.mpr hc)
  have hne : ∀ d, (d == '.' || isOperatorChar d) = false → (c == d) = false := by
    intro d hd
    rw [beq_eq_false_iff_ne]
    rintro rfl
    rw [hd] at hc
    cases hc
  have hmark : markKind? c = none := by
    unfold markKind?
    split
    all_goals first | rfl | exact absurd hc (by decide)
  unfold codeLexeme
  simp only [hrest, hmark, hdigit, hstart, hne '(' (by decide), hne ')' (by decide),
    hne '"' (by decide), hne '#' (by decide), hne '$' (by decide), hc, Bool.false_eq_true, if_false,
    if_true]

/-- No read for an angle bracket is out of range. -/
theorem angleBracketAt?_eq (h : l.toCursor.IsIn source) (hrest : l.rest = c :: text) :
    l.angleBracketAt? source c = some (l.angleBracket? c text) := by
  unfold angleBracketAt? angleBracket?
  by_cases hopen : (c == '<') = true
  · rw [if_pos hopen, if_pos hopen]
    split
    · rfl
    · rw [GenericArguments.at?_eq h (hrest.trans (congrArg (· :: text) (eq_of_beq hopen)))]
      rfl
  · rw [if_neg hopen, if_neg hopen]
    split <;> rfl

/-- Nor is one for an operator. -/
theorem operatorLexemeAt?_eq (h : l.toCursor.IsIn source) (hrest : l.rest = c :: text) :
    l.operatorLexemeAt? source c = some (l.operatorLexeme c text) := by
  have hle := Operator.extension_le (c == '.') l.angles.closers (l.index + 1) text
  unfold operatorLexemeAt? operatorLexeme
  simp only [angleBracketAt?_eq h hrest, Operator.isLeftBoundAt?_eq h, h.drop_index_succ hrest,
    Option.bind_eq_bind, Option.bind_some, Option.pure_def]
  cases l.angleBracket? c text with
  | some found => rfl
  | none =>
    simp only
    split
    · rfl
    rw [stretch?_of_le h.index_le (by rw [h.drop_index, hrest, List.length_cons]; omega),
      Operator.isRightBoundAt_eq, ← List.drop_drop, h.drop_index]
    rfl

/-- Nor is one for a word. -/
theorem wordLexemeAt?_eq (h : l.toCursor.IsIn source) (hrest : l.rest = c :: text) :
    l.wordLexemeAt? source = some (l.wordLexeme c text) := by
  have hprefix : text.takeWhile isWordChar <+: text := List.takeWhile_prefix _
  have hlength : 1 + (text.takeWhile isWordChar).length ≤ l.rest.length := by
    rw [hrest, List.length_cons, Nat.add_comm]
    exact Nat.succ_le_succ hprefix.length_le
  have hword : l.rest.take (1 + (text.takeWhile isWordChar).length) = c :: text.takeWhile isWordChar := by
    rw [hrest, Nat.add_comm, List.take_succ_cons, ← List.prefix_iff_eq_take.mp hprefix]
  have hbehind : l.rest.drop (1 + (text.takeWhile isWordChar).length) = text.dropWhile isWordChar := by
    rw [hrest, Nat.add_comm, List.drop_succ_cons]
    nth_rewrite 2 [← List.takeWhile_append_dropWhile (p := isWordChar) (l := text)]
    exact List.drop_left
  unfold wordLexemeAt? wordLexeme
  simp only [h.drop_index_succ hrest, Word.kindAt?_eq h hlength, hword, hbehind,
    Option.bind_eq_bind, Option.bind_some, Option.pure_def]

/-- Nor is one for a pound keyword. -/
theorem poundWordAt?_eq (h : source.drop (l.index + 1) = text) :
    (l.poundWordAt? source).map Except.ok = some
      (match PoundKeyword.ofSpelling? (Word.leading text) with
      | some k => (.ok (l.plain (.poundKeyword k) (1 + (Word.leading text).length)) : Except Interruption _)
      | none => .ok (l.plain .pound 1)) := by
  unfold poundWordAt?
  rw [Word.at?_eq, h]
  by_cases hnone : Word.leading text = []
  · -- no keyword is spelled with nothing
    rw [if_pos hnone, hnone]
    rfl
  · rw [if_neg hnone]
    simp only [Option.bind_eq_bind, Option.bind_some, Option.pure_def]
    cases PoundKeyword.ofSpelling? (Word.leading text) <;> rfl

/-- Nor is one for a raw string, or anything else that starts with a number sign. -/
theorem poundLexemeAt?_eq (h : l.toCursor.IsIn source) (hrest : l.rest = c :: text) :
    l.poundLexemeAt? source = some (l.poundLexeme text) := by
  have hdrop : source.drop (l.index + 1) = text := h.drop_index_succ hrest
  have hsigns : suffixAt? source (l.index + 1) = some text := by
    rw [suffixAt?_of_le (h.index_succ_le hrest), hdrop]
  have hbehind (n : Nat) : source[l.index + 1 + n]? = (text.drop n).head? := by
    rw [← hdrop, List.drop_drop, List.head?_drop]
  have hbody (n : Nat) : source.drop (l.index + 1 + n + 1) = (text.drop n).tail := by
    rw [← hdrop, List.drop_drop, List.tail_drop]
  unfold poundLexemeAt? poundLexeme
  simp only [hsigns, hbehind, hbody, poundWordAt?_eq hdrop, Option.bind_eq_bind, Option.bind_some,
    Option.pure_def]
  cases text.drop (text.takeWhile (· == '#')).length with
  | nil => rfl
  | cons d body =>
    rw [List.head?_cons, List.tail_cons]
    by_cases hquote : d = '"'
    · subst hquote
      rfl
    · split
      · rename_i hd
        exact absurd (Option.some.inj hd) hquote
      refine congrArg some ?_
      symm
      split
      · rename_i hd
        exact absurd (List.cons.inj hd).1 hquote
      · rfl

/-- No read in the search for a lexeme is out of range. -/
theorem lexemeAt?_eq (h : l.toCursor.IsIn source) : l.lexemeAt? source = some l.lexeme := by
  unfold lexemeAt?
  rw [h.getElem?_index]
  cases hrest : l.rest with
  | nil => rfl
  | cons c text =>
    rw [List.head?_cons]
    simp only
    split
    · rfl
    rename_i hcode
    rw [Bool.not_eq_true, Bool.not_eq_false'] at hcode
    rw [lexeme_of_isCode hcode]
    split
    · rename_i hc
      rw [poundLexemeAt?_eq h hrest, codeLexeme_of_pound (hrest.trans (by rw [eq_of_beq hc]))]
    split
    · rename_i hc
      rw [operatorLexemeAt?_eq h hrest, codeLexeme_of_operator hrest hc]
      rfl
    split
    · rename_i hword
      obtain ⟨hdigit, hstart⟩ := Bool.and_eq_true_iff.mp hword
      rw [wordLexemeAt?_eq h hrest, codeLexeme_of_isWordChar hrest (isWordChar_of_isWordStart hstart),
        if_neg (by simpa using hdigit), if_pos hstart]
      rfl
    · rfl

end Lexer

-- ---------------------------------------------------------------------------
-- The texts of trivia
-- ---------------------------------------------------------------------------

/-- The texts of pieces of trivia that stand in a row from an index on. -/
def cutAt? (source : List Char) : Nat → List Piece → Option (List (List Char))
  | _, [] => some []
  | index, p :: pieces => do
    let text ← stretch? source index (index + p.text.length)
    let texts ← cutAt? source (index + p.text.length) pieces
    return text :: texts

/-- No read for the texts of trivia is out of range, and what is read is what the pieces hold. -/
theorem cutAt?_of_isPrefix {source : List Char} {index : Nat} {pieces : List Piece}
    (hindex : index ≤ source.length) (h : Trivia.text pieces <+: source.drop index) :
    cutAt? source index pieces = some (pieces.map Piece.text) := by
  induction pieces generalizing index with
  | nil => rfl
  | cons p pieces ih =>
    obtain ⟨behind, hbehind⟩ := h
    rw [Trivia.text_cons, List.append_assoc] at hbehind
    have hlength : p.text.length ≤ (source.drop index).length := by
      rw [← hbehind, List.length_append]
      exact Nat.le_add_right ..
    have hnext : source.drop (index + p.text.length) = Trivia.text pieces ++ behind := by
      rw [← List.drop_drop, ← hbehind, List.drop_left]
    have hle : index + p.text.length ≤ source.length := by
      rw [List.length_drop] at hlength
      omega
    rw [cutAt?, stretch?_of_le hindex hlength, ← hbehind, List.take_left,
      ih hle ⟨behind, hnext.symm⟩]
    rfl

end SwiftColoring
