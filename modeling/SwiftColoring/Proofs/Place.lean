import Mathlib.Data.List.Induction
import SwiftColoring.Lexer.Cursor

/-!
# Exact places

Places and cursors are moved forward character by character. Here they are tied to the text that
lies before them, counted afresh: the line feeds in it, the characters behind the last of these,
and the bytes. Bytes are those of the UTF-8 form of the text.

* `Pos.after_origin` — the place reached from the start of a source is the place behind the text.
* `Cursor.IsIn.advance` — a cursor that stands in a source still does so after every move.
* `extract_utf8Encode` — the bytes of a stretch, cut out of the bytes of a source, encode the
  stretch.
-/

namespace SwiftColoring

-- ---------------------------------------------------------------------------
-- The place behind a text
-- ---------------------------------------------------------------------------

/-- The place behind a text that a source starts with: its line feeds, the characters behind the
last of them, and its bytes. -/
def Pos.behind (text : List Char) : Pos :=
  ⟨text.count '\n', (text.reverse.takeWhile (· != '\n')).length, byteLength text⟩

/-- One more character behind a text moves the place behind it by that character. -/
theorem Pos.behind_concat (text : List Char) (c : Char) :
    Pos.behind (text ++ [c]) = (Pos.behind text).advance c := by
  unfold Pos.behind Pos.advance
  have hcount : (text ++ [c]).count '\n' = text.count '\n' + if c = '\n' then 1 else 0 := by
    rw [List.count_append, List.count_singleton]
    simp only [beq_iff_eq]
  rw [hcount, List.reverse_append, List.reverse_singleton, List.singleton_append,
    List.takeWhile_cons, byteLength_append, byteLength_cons, byteLength_nil]
  by_cases hc : c = '\n'
  · -- a line feed starts a line, so nothing stands behind the last one
    simp [hc]
  · simp [hc]

/-- The place that is reached by moving over a text is the one counted afresh. -/
theorem Pos.after_origin (text : List Char) : Pos.origin.after text = Pos.behind text := by
  induction text using List.reverseRecOn with
  | nil => rfl
  | append_singleton text c ih =>
    rw [Pos.after_append, ih, Pos.behind_concat]
    rfl

@[simp] theorem Pos.behind_offset (text : List Char) :
    (Pos.behind text).offset = byteLength text := rfl

-- ---------------------------------------------------------------------------
-- Cursors in a source
-- ---------------------------------------------------------------------------

namespace Cursor

/-- The cursor stands somewhere in the source and counts truly. -/
structure IsIn (source : List Char) (c : Cursor) : Prop where
  split : c.before.reverse ++ c.rest = source
  index_eq : c.index = c.before.length
  pos_eq : c.pos = Pos.behind c.before.reverse

/-- A cursor stands in its source from the start. -/
theorem isIn_ofText (source : List Char) : (Cursor.ofText source).IsIn source :=
  ⟨rfl, rfl, rfl⟩

namespace IsIn

variable {source : List Char} {c : Cursor}

/-- Moving a cursor, past the end too, leaves it in its source. -/
theorem advance (h : c.IsIn source) (n : Nat) : (c.advance n).IsIn source where
  split := by
    rw [advance_before, advance_rest, List.reverse_append, List.reverse_reverse, List.append_assoc,
      List.take_append_drop, h.split]
  index_eq := by
    rw [advance_index, advance_before, List.length_append, List.length_reverse, h.index_eq,
      Nat.add_comm]
  pos_eq := by
    rw [advance_pos, advance_before, h.pos_eq, List.reverse_append, List.reverse_reverse,
      ← Pos.after_origin, ← Pos.after_origin, Pos.after_append]

/-- What a cursor has passed is the source up to its index. -/
theorem take_index (h : c.IsIn source) : source.take c.index = c.before.reverse := by
  rw [← h.split, h.index_eq]
  exact List.take_left' List.length_reverse

/-- What is left before a cursor is the source from its index on. -/
theorem drop_index (h : c.IsIn source) : source.drop c.index = c.rest := by
  rw [← h.split, h.index_eq]
  exact List.drop_left' List.length_reverse

theorem index_le (h : c.IsIn source) : c.index ≤ source.length := by
  rw [← h.split, h.index_eq, List.length_append, List.length_reverse]
  exact Nat.le_add_right ..

/-- The place of the cursor is the place behind the characters it has passed. -/
theorem pos_eq_behind (h : c.IsIn source) : c.pos = Pos.behind (source.take c.index) := by
  rw [h.take_index, h.pos_eq]

end IsIn

end Cursor

-- ---------------------------------------------------------------------------
-- Bytes
-- ---------------------------------------------------------------------------

/-- Offsets count the bytes of the UTF-8 form. -/
theorem size_utf8Encode (text : List Char) : text.utf8Encode.size = byteLength text := by
  induction text with
  | nil => rfl
  | cons c text ih =>
    rw [List.utf8Encode_cons, ByteArray.size_append, ih, List.utf8Encode_singleton,
      List.size_toByteArray, String.length_utf8EncodeChar, byteLength_cons]

/-- A stretch of a text is cut out of its bytes by the bytes before it and its own. -/
theorem extract_utf8Encode (before text behind : List Char) :
    (before ++ text ++ behind).utf8Encode.extract (byteLength before)
      (byteLength before + byteLength text) = text.utf8Encode := by
  have hskip := ByteArray.extract_append_size_add' (a := before.utf8Encode)
    (b := (text ++ behind).utf8Encode) (i := 0) (j := byteLength text) (size_utf8Encode before).symm
  rw [Nat.add_zero] at hskip
  rw [List.append_assoc, List.utf8Encode_append, hskip, List.utf8Encode_append]
  exact ByteArray.extract_append_eq_left (size_utf8Encode text).symm

end SwiftColoring
