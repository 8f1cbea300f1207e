import SwiftColoring.Lexeme.Comment
import SwiftColoring.Token.Trivia

/-!
# Gaps between tokens

A gap is the longest run of trivia that a text starts with. Behind a token the gap stops before the
first line break, so that the break belongs to the next token. A line that starts with a number sign
and an exclamation mark is skipped as garbage, but only as the very first thing in a source. A block
comment that never ends is not trivia: the gap stops before it and says so.

* `GapStart.ofText_eq_piece` — a piece holds the characters that the text starts with, and at least one.
-/

namespace SwiftColoring

namespace RunUnit

/-- The unit that the text starts with, if it starts with one. A carriage return directly before a
line feed is part of that break. -/
def ofText? : List Char → Option RunUnit
  | ' ' :: _ => some .space
  | '\t' :: _ => some .tab
  | '\x0b' :: _ => some .verticalTab
  | '\x0c' :: _ => some .formfeed
  | '\n' :: _ => some .newline
  | '\r' :: '\n' :: _ => some .returnNewline
  | '\r' :: _ => some .carriageReturn
  | '`' :: _ => some .backtick
  | _ => none

theorem text_ne_nil (u : RunUnit) : u.text ≠ [] := by
  cases u <;> decide

theorem text_isPrefix_of_ofText? {u : RunUnit} {text : List Char} (h : ofText? text = some u) :
    u.text <+: text := by
  unfold ofText? at h
  split at h <;> simp_all only [Option.some.injEq, reduceCtorEq] <;> subst h <;> simp [RunUnit.text]

/-- How many times in a row the text starts with the unit. -/
def count (u : RunUnit) (text : List Char) : Nat :=
  if ofText? text = some u then count u (text.drop u.text.length) + 1 else 0
termination_by text.length
decreasing_by
  rename_i h
  have := (text_isPrefix_of_ofText? h).length_le
  have := List.length_pos_iff.mpr u.text_ne_nil
  simp only [List.length_drop]
  omega

theorem run_isPrefix (u : RunUnit) (text : List Char) :
    (Piece.run u (u.count text)).text <+: text := by
  fun_induction count u text with
  | case1 text h ih =>
    obtain ⟨rest, rfl⟩ := text_isPrefix_of_ofText? h
    rw [List.drop_left] at ih ⊢
    simpa [Piece.text, List.replicate_succ] using ih
  | case2 text h => simp [Piece.text]

theorem count_pos {u : RunUnit} {text : List Char} (h : ofText? text = some u) :
    0 < u.count text := by
  rw [count, if_pos h]
  exact Nat.succ_pos _

end RunUnit

/-- What a text starts with, as far as trivia goes. -/
inductive GapStart where
  /-- No trivia. -/
  | nothing
  | piece (p : Piece)
  /-- A block comment that never ends. -/
  | openComment
  deriving DecidableEq, Repr

/-- What the text starts with. `trailing` says that a token precedes on the same line, `atStart` that
nothing precedes at all. -/
def GapStart.ofText (trailing atStart : Bool) (text : List Char) : GapStart :=
  match RunUnit.ofText? text with
  | some u => if trailing && u.isBreak then .nothing else .piece (.run u (u.count text))
  | none =>
    match text with
    | '/' :: '/' :: _ =>
      -- the break that ends the line is a piece of its own
      .piece (.lineComment (Comment.isDoc '/' text) (text.takeWhile fun c => !isLineBreak c))
    | '/' :: '*' :: _ =>
      match Comment.blockLength? text with
      | some n => .piece (.blockComment (Comment.isDoc '*' text) (text.take n))
      | none => .openComment
    | '#' :: '!' :: _ =>
      if atStart then .piece (.garbage (text.takeWhile fun c => !isLineBreak c)) else .nothing
    | c :: _ => if isGarbage c then .piece (.garbage (text.takeWhile isGarbage)) else .nothing
    | [] => .nothing

theorem GapStart.ofText_eq_piece {trailing atStart : Bool} {text : List Char} {p : Piece}
    (h : GapStart.ofText trailing atStart text = .piece p) : p.text ≠ [] ∧ p.text <+: text := by
  unfold GapStart.ofText at h
  split at h
  · rename_i u hu
    split at h
    · simp at h
    · obtain rfl := GapStart.piece.inj h
      refine ⟨?_, u.run_isPrefix text⟩
      intro hnil
      have hpos := RunUnit.count_pos hu
      exact u.text_ne_nil <| List.flatten_eq_nil_iff.mp hnil u.text <|
        List.mem_replicate.mpr ⟨by omega, rfl⟩
  · split at h
    · -- a line comment holds its markers at least
      obtain rfl := GapStart.piece.inj h
      exact ⟨by simp [Piece.text, isLineBreak], List.takeWhile_prefix _⟩
    · split at h
      · -- so does a block comment, whose length counts them
        rename_i n hn
        obtain rfl := GapStart.piece.inj h
        refine ⟨?_, List.take_prefix ..⟩
        obtain ⟨m, -, rfl⟩ := Option.map_eq_some_iff.mp hn
        simp [Piece.text]
      · simp at h
    · split at h
      · obtain rfl := GapStart.piece.inj h
        exact ⟨by simp [Piece.text, isLineBreak], List.takeWhile_prefix _⟩
      · simp at h
    · split at h
      · -- the run holds the character that started it
        rename_i hc
        obtain rfl := GapStart.piece.inj h
        exact ⟨by simp [Piece.text, hc], List.takeWhile_prefix _⟩
      · simp at h
    · simp at h

/-- The trivia that a text starts with. -/
structure Gap where
  /-- The pieces, unmerged, in source order. -/
  pieces : List Piece
  /-- A block comment that never ends follows the pieces. -/
  openComment : Bool
  deriving DecidableEq, Repr

namespace Gap

/-- The gap that the text starts with. -/
def ofText (trailing atStart : Bool) (text : List Char) : Gap :=
  match _h : GapStart.ofText trailing atStart text with
  | .nothing => ⟨[], false⟩
  | .openComment => ⟨[], true⟩
  | .piece p =>
    let gap := ofText trailing false (text.drop p.text.length)
    ⟨p :: gap.pieces, gap.openComment⟩
termination_by text.length
decreasing_by
  obtain ⟨hne, hle⟩ := GapStart.ofText_eq_piece _h
  have := hle.length_le
  have := List.length_pos_iff.mpr hne
  simp only [List.length_drop]
  omega

/-- The number of characters of the pieces. -/
def length (g : Gap) : Nat := (Trivia.text g.pieces).length

end Gap

end SwiftColoring
