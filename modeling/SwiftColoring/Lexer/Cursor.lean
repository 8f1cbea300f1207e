import SwiftColoring.Text.Position

/-!
# Cursors

A cursor stands between two characters of a text. It knows the characters before it, nearest first, and
the characters behind it, and it counts where it stands, in characters and as a place.

* `advance_advance` — moving twice is moving once by the sum.
* `advance_before`, `advance_rest` — moving takes characters from behind the cursor to before it.
-/

namespace SwiftColoring

/-- A place in a text with the text on both sides. -/
structure Cursor where
  /-- The characters before the cursor, nearest first. -/
  before : List Char
  /-- The characters behind the cursor. -/
  rest : List Char
  /-- The number of characters before the cursor. -/
  index : Nat
  pos : Pos
  deriving DecidableEq, Repr

namespace Cursor

/-- The cursor before the first character. -/
def ofText (text : List Char) : Cursor := ⟨[], text, 0, .origin⟩

/-- The cursor moved over a number of characters, or to the end if fewer are left. -/
def advance (c : Cursor) (n : Nat) : Cursor :=
  let passed := c.rest.take n
  ⟨passed.reverse ++ c.before, c.rest.drop n, c.index + passed.length, c.pos.after passed⟩

@[simp] theorem advance_zero (c : Cursor) : c.advance 0 = c := by
  simp [advance]

@[simp] theorem advance_rest (c : Cursor) (n : Nat) : (c.advance n).rest = c.rest.drop n := rfl

@[simp] theorem advance_before (c : Cursor) (n : Nat) :
    (c.advance n).before = (c.rest.take n).reverse ++ c.before := rfl

@[simp] theorem advance_pos (c : Cursor) (n : Nat) :
    (c.advance n).pos = c.pos.after (c.rest.take n) := rfl

@[simp] theorem advance_index (c : Cursor) (n : Nat) :
    (c.advance n).index = c.index + (c.rest.take n).length := rfl

theorem advance_advance (c : Cursor) (m n : Nat) : (c.advance m).advance n = c.advance (m + n) := by
  simp only [advance, List.take_add, List.reverse_append, List.append_assoc, List.length_append,
    Pos.after_append, List.drop_drop, Nat.add_assoc]

end Cursor

end SwiftColoring
