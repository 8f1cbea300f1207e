import Mathlib.Data.List.Chain
import Mathlib.Data.List.TakeWhile
import SwiftColoring.Proofs.Gap

/-!
# What a piece of trivia can be

A piece is as long as it can be: a run stops where its unit is not repeated, a line comment before the
break that ends its line, and garbage before the first character of another class. So the next piece
never merges with it, and trivia is stored the way it was found, one piece for each that was taken.

* `pieceCase_of_start` — every piece is one of the cases of `PieceCase`.
* `RunUnit.ofText?_behind_run` — behind a run its unit does not follow once more.
* `Trivia.ofList_pieces` — the pieces of a gap are stored as they are.
-/

namespace SwiftColoring

/-- What a piece at the front of the text can be. -/
inductive PieceCase (atStart : Bool) (text : List Char) : Piece → Prop where
  | run {unit : RunUnit} (hunit : RunUnit.ofText? text = some unit) :
      PieceCase atStart text (.run unit (unit.count text))
  | lineComment {rest : List Char} (htext : text = '/' :: '/' :: rest) :
      PieceCase atStart text
        (.lineComment (Comment.isDoc '/' text) (text.takeWhile fun c => !isLineBreak c))
  | blockComment {rest : List Char} {n : Nat} (htext : text = '/' :: '*' :: rest)
      (hclosing : Comment.closing? 0 rest = some n) :
      PieceCase atStart text (.blockComment (Comment.isDoc '*' text) (text.take (n + 2)))
  /-- The line that names an interpreter. -/
  | script {rest : List Char} (hstart : atStart = true) (htext : text = '#' :: '!' :: rest) :
      PieceCase atStart text (.garbage (text.takeWhile fun c => !isLineBreak c))
  | garbage {c : Char} {rest : List Char} (htext : text = c :: rest) (hc : isGarbage c = true) :
      PieceCase atStart text (.garbage (text.takeWhile isGarbage))

variable {trailing atStart : Bool} {text : List Char} {p q : Piece}

theorem pieceCase_of_start (h : GapStart.ofText trailing atStart text = .piece p) :
    PieceCase atStart text p := by
  unfold GapStart.ofText at h
  split at h
  · rename_i unit hunit
    split at h
    · cases h
    · cases h
      exact .run hunit
  · split at h
    · cases h
      exact .lineComment rfl
    · split at h
      · rename_i n hn
        cases h
        obtain ⟨m, hm, rfl⟩ := Option.map_eq_some_iff.mp hn
        exact .blockComment rfl hm
      · cases h
    · split at h
      · cases h
        exact .script ‹_› rfl
      · cases h
    · split at h
      · cases h
        exact .garbage rfl ‹_›
      · cases h
    · cases h

/-- Behind a token a break is held back, and nothing else is. -/
theorem GapStart.ofText_trailing (atStart : Bool) (text : List Char) :
    ofText true atStart text =
      if (RunUnit.ofText? text).any RunUnit.isBreak then .nothing else ofText false atStart text := by
  unfold ofText
  cases RunUnit.ofText? text with
  | none => rfl
  | some unit => cases hbreak : unit.isBreak <;> simp [hbreak]

theorem isBreak_of_trailing {unit : RunUnit} {n : Nat}
    (h : GapStart.ofText true atStart text = .piece (.run unit n)) : unit.isBreak = false := by
  rw [GapStart.ofText_trailing] at h
  split at h
  · cases h
  · rename_i hbreak
    cases pieceCase_of_start h with
    | run hunit =>
      rw [hunit] at hbreak
      exact Bool.eq_false_iff.mpr hbreak

/-- Where the trivia behind a token stops, a break follows before any other piece. -/
theorem isBreak_of_stop (hstop : GapStart.ofText true atStart text = .nothing)
    (h : GapStart.ofText false atStart text = .piece p) :
    ∃ unit n, p = .run unit n ∧ unit.isBreak = true := by
  rw [GapStart.ofText_trailing] at hstop
  split at hstop
  · rename_i hbreak
    obtain ⟨unit, hunit, hbreak⟩ := (Option.any_eq_true ..).mp hbreak
    have hrun : GapStart.ofText false atStart text = .piece (.run unit (unit.count text)) := by
      unfold GapStart.ofText
      rw [hunit]
      rfl
    exact ⟨unit, _, GapStart.piece.inj (h.symm.trans hrun), hbreak⟩
  · rw [hstop] at h
    cases h

-- ---------------------------------------------------------------------------
-- What follows a piece
-- ---------------------------------------------------------------------------

/-- Where the characters of a sort stop, another sort follows. -/
theorem head?_behind_takeWhile (p : Char → Bool) (text : List Char) :
    ∀ c ∈ (text.drop (text.takeWhile p).length).head?, p c = false := by
  have hdrop : text.drop (text.takeWhile p).length = text.dropWhile p := by
    calc text.drop (text.takeWhile p).length
        = (text.takeWhile p ++ text.dropWhile p).drop (text.takeWhile p).length := by
          rw [List.takeWhile_append_dropWhile]
      _ = text.dropWhile p := List.drop_left
  intro c hc
  have hstop := List.head?_dropWhile_not p text
  rw [hdrop, Option.mem_def] at hc
  rwa [hc] at hstop

theorem text_run_succ (unit : RunUnit) (n : Nat) :
    (Piece.run unit (n + 1)).text = (Piece.run unit n).text ++ unit.text := by
  rw [Piece.text, List.replicate_succ', List.flatten_concat]
  rfl

theorem length_run_succ (unit : RunUnit) (n : Nat) :
    (Piece.run unit (n + 1)).text.length = unit.text.length + (Piece.run unit n).text.length := by
  rw [text_run_succ, List.length_append, Nat.add_comm]

theorem RunUnit.mem_text_of_mem_run {unit : RunUnit} {n : Nat} {c : Char}
    (hc : c ∈ (Piece.run unit n).text) : c ∈ unit.text := by
  obtain ⟨chars, hchars, hmem⟩ := List.mem_flatten.mp hc
  obtain ⟨-, rfl⟩ := List.mem_replicate.mp hchars
  exact hmem

theorem RunUnit.ofText?_behind_run (unit : RunUnit) (text : List Char) :
    ofText? (text.drop (Piece.run unit (unit.count text)).text.length) ≠ some unit := by
  fun_induction count unit text with
  | case1 text h ih =>
    rw [length_run_succ, ← List.drop_drop]
    exact ih
  | case2 text h => exact h

/-- A carriage return before a line feed is part of that break. -/
theorem RunUnit.head?_behind_returns (text : List Char) (h : ofText? text = some .carriageReturn) :
    (text.drop (Piece.run .carriageReturn (count .carriageReturn text)).text.length).head? ≠
      some '\n' := by
  -- the last return of the run is no such break
  induction hlength : text.length using Nat.strongRecOn generalizing text with
  | ind n ih =>
    subst hlength
    rw [count, if_pos h, length_run_succ, ← List.drop_drop]
    obtain ⟨rest, hrest⟩ := text_isPrefix_of_ofText? h
    obtain rfl : '\r' :: rest = text := hrest
    show (rest.drop (Piece.run .carriageReturn (count .carriageReturn rest)).text.length).head? ≠
      some '\n'
    by_cases hmore : ofText? rest = some .carriageReturn
    · exact ih rest.length (Nat.lt_succ_self _) rest hmore rfl
    · rw [count, if_neg hmore]
      intro hbreak
      obtain ⟨behind, rfl⟩ := List.head?_eq_some_iff.mp hbreak
      cases h

-- ---------------------------------------------------------------------------
-- Breaks
-- ---------------------------------------------------------------------------

theorem isLineBreak_of_mem_takeWhile {text : List Char} :
    ∀ c ∈ text.takeWhile (fun c => !isLineBreak c), isLineBreak c = false := by
  intro c hc
  have hunbroken := List.mem_takeWhile_imp hc
  rwa [Bool.not_eq_true'] at hunbroken

theorem isLineBreak_behind_takeWhile (text : List Char) :
    ∀ c ∈ (text.drop (text.takeWhile fun c => !isLineBreak c).length).head?,
      isLineBreak c = true := by
  intro c hc
  have hbreak := head?_behind_takeWhile _ text c hc
  rwa [Bool.not_eq_false'] at hbreak

theorem isGarbage_of_isLineBreak {c : Char} (hc : isLineBreak c = true) : isGarbage c = false := by
  simp only [isLineBreak, Bool.or_eq_true, beq_iff_eq] at hc
  rcases hc with rfl | rfl <;> rfl

/-- Where a break stands, a piece starts. -/
theorem exists_start_of_isLineBreak {c : Char} (hc : isLineBreak c = true) (atStart : Bool)
    (rest : List Char) :
    ∃ unit n, unit.isBreak = true ∧
      GapStart.ofText false atStart (c :: rest) = .piece (.run unit n) := by
  have hunit : ∃ unit, RunUnit.ofText? (c :: rest) = some unit ∧ unit.isBreak = true := by
    simp only [isLineBreak, Bool.or_eq_true, beq_iff_eq] at hc
    rcases hc with rfl | rfl
    · exact ⟨.newline, rfl, rfl⟩
    · unfold RunUnit.ofText?
      split <;> simp_all [RunUnit.isBreak]
  obtain ⟨unit, hunit, hbreak⟩ := hunit
  refine ⟨unit, unit.count (c :: rest), hbreak, ?_⟩
  unfold GapStart.ofText
  rw [hunit]
  rfl

-- ---------------------------------------------------------------------------
-- What is not found behind a piece
-- ---------------------------------------------------------------------------

/-- Garbage goes on to the first character of another class, or to the end of the line. -/
theorem isGarbage_behind_garbage {found : List Char}
    (h : GapStart.ofText trailing atStart text = .piece (.garbage found)) :
    ∀ c ∈ (text.drop found.length).head?, isGarbage c = false := by
  cases pieceCase_of_start h with
  | garbage => exact head?_behind_takeWhile _ _
  | script =>
    intro c hc
    exact isGarbage_of_isLineBreak (isLineBreak_behind_takeWhile _ c hc)

theorem not_garbage_behind_garbage {found other : List Char}
    (h : GapStart.ofText trailing atStart text = .piece (.garbage found)) :
    GapStart.ofText trailing false (text.drop found.length) ≠ .piece (.garbage other) := by
  intro hother
  have hbehind := isGarbage_behind_garbage h
  generalize text.drop found.length = behind at hbehind hother
  cases pieceCase_of_start hother with
  | script hstart => cases hstart
  | @garbage c _ htext hc =>
    rw [hbehind c (by rw [htext]; rfl)] at hc
    cases hc

/-- A carriage return before a line feed has been left to that break. -/
theorem not_newlines_behind_returns {m n : Nat}
    (h : GapStart.ofText trailing atStart text = .piece (.run .carriageReturn m)) :
    GapStart.ofText trailing false
      (text.drop (Piece.run .carriageReturn m).text.length) ≠ .piece (.run .newline n) := by
  intro hother
  cases pieceCase_of_start h with
  | run hunit =>
    have hbehind := RunUnit.head?_behind_returns text hunit
    generalize text.drop _ = behind at hbehind hother
    cases pieceCase_of_start hother with
    | run hnewline =>
      obtain ⟨rest, rfl⟩ := RunUnit.text_isPrefix_of_ofText? hnewline
      exact hbehind rfl

-- ---------------------------------------------------------------------------
-- Trivia is stored as it is found
-- ---------------------------------------------------------------------------

/-- A piece does not merge with the one that is found behind it. -/
theorem merge?_of_behind (hp : GapStart.ofText trailing atStart text = .piece p)
    (hq : GapStart.ofText trailing false (text.drop p.text.length) = .piece q) :
    p.merge? q = none := by
  cases pieceCase_of_start hp with
  | run hunit =>
    generalize hbehind : text.drop _ = behind at hq
    cases pieceCase_of_start hq with
    | @run other hother =>
      refine if_neg ?_
      rintro rfl
      rw [← hbehind] at hother
      exact RunUnit.ofText?_behind_run _ text hother
    | _ => rfl
  | _ => rfl

theorem Gap.isChain_pieces (trailing atStart : Bool) (text : List Char) :
    (ofText trailing atStart text).pieces.IsChain fun p q => p.merge? q = none := by
  fun_induction ofText trailing atStart text with
  | case1 | case2 => exact List.isChain_nil
  | case3 atStart text p h gap ih =>
    refine ih.cons fun q hq => ?_
    -- the next piece of the gap is the one found behind the first
    cases hnext : GapStart.ofText trailing false (text.drop p.text.length) with
    | nothing | openComment =>
      simp only [ofText_of_nothing, ofText_of_openComment, hnext] at hq
      cases hq
    | piece r =>
      simp only [ofText_of_piece hnext] at hq
      obtain rfl := Option.some.inj hq
      exact merge?_of_behind h hnext

theorem Trivia.push_eq_append {t : Trivia} (h : ∀ q ∈ t.getLast?, q.merge? p = none) :
    push t p = t ++ [p] := by
  rcases push_cases t p with ⟨hpush, -⟩ | ⟨init, unit, m, n, rfl, rfl, -⟩
  · exact hpush
  · -- a run of the same unit would merge
    have hmerge := h (.run unit m) List.getLast?_concat
    rw [Piece.merge?, if_pos rfl] at hmerge
    cases hmerge

/-- Pieces that do not merge are stored as they are. -/
theorem Trivia.ofList_eq_self {pieces : List Piece} (h : pieces.IsChain fun p q => p.merge? q = none) :
    ofList pieces = pieces := by
  induction pieces using List.reverseRecOn with
  | nil => rfl
  | append_singleton pieces p ih =>
    obtain ⟨hfirst, -, hlast⟩ := List.isChain_append.mp h
    rw [ofList_concat, ih hfirst, push_eq_append fun q hq => hlast q hq p rfl]

theorem Trivia.ofList_pieces (trailing atStart : Bool) (text : List Char) :
    ofList (Gap.ofText trailing atStart text).pieces = (Gap.ofText trailing atStart text).pieces :=
  ofList_eq_self (Gap.isChain_pieces ..)

end SwiftColoring
