import SwiftColoring.Drawing.Trivia

/-!
# Trivia on a machine

Elsewhere counts, sizes and places are numbers without bound, which is harmless for trivia that is cut
out of a source in memory. Trivia put together by hand may repeat a blank more often than a machine can
count, or than memory has room for. Here it is put together, measured, spelled out and drawn on a
machine: numbers are words, texts are held in memory, and what does not fit is a fault.
-/

namespace SwiftColoring

/-- The largest number that a machine word holds. -/
def maxWord : Nat := UInt64.size - 1

/-- The largest number of bytes that a text in memory has. -/
def maxBytes : Nat := UInt64.size / 2 - 1

/-- Why a machine has no answer. -/
inductive SizeFault where
  /-- A number is too large for a word. -/
  | overflow
  /-- A text is too large for memory. -/
  | capacity
  deriving DecidableEq, Repr

/-- An answer of a machine. -/
abbrev Checked := Except SizeFault

/-- The number, if a word holds it. -/
def word (n : Nat) : Checked Nat := if n ≤ maxWord then .ok n else .error .overflow

namespace Piece

/-- The size of the piece in bytes. -/
def checkedSize : Piece → Checked Nat
  | .run unit count => word (unit.text.length * count)
  | .lineComment _ text | .blockComment _ text | .garbage text => word (byteLength text)

/-- The characters of the piece. Those of a run are made only if there is room for them; the others are
in memory already. -/
def checkedText (p : Piece) : Checked (List Char) :=
  match p with
  | .run unit count =>
    if unit.text.length * count ≤ maxBytes then .ok p.text else .error .capacity
  | .lineComment _ text | .blockComment _ text | .garbage text => .ok text

/-- The place behind the piece, if it starts at the place. -/
def checkedStop (p : Piece) (start : Nat) : Checked Nat := do word (start + (← p.checkedSize))

/-- What is written already, with the characters of the piece behind it. -/
def checkedWrite (p : Piece) (written : List Char) : Checked (List Char) := do
  let text ← p.checkedText
  if byteLength written + byteLength text ≤ maxBytes then return written ++ text else .error .capacity

/-- A piece drawn in its place. What is not drawn is not spelled out. -/
def checkedDraw? (p : Piece) (range : ByteRange) : Checked (Option Drawn) :=
  match Category.ofPiece? p with
  | none => .ok none
  | some category => do return some ⟨← p.checkedText, category, range⟩

end Piece

namespace Trivia

/-- The trivia with a piece added at its end. -/
def checkedPush : Trivia → Piece → Checked Trivia
  | [], p => .ok [p]
  | [.run u m], .run v n =>
    if u = v then do return [.run u (← word (m + n))] else .ok [.run u m, .run v n]
  | [q], p => .ok [q, p]
  | q :: r :: t, p => do return q :: (← checkedPush (r :: t) p)

/-- The trivia of pieces added in turn. -/
def checkedOfList (pieces : List Piece) : Checked Trivia := pieces.foldlM checkedPush []

/-- The size of the trivia in bytes. -/
def checkedSize (t : Trivia) : Checked Nat := t.foldlM (fun size p => p.checkedStop size) 0

/-- The characters of the trivia, written one piece after the other. -/
def checkedText (t : Trivia) : Checked (List Char) := t.foldlM (fun written p => p.checkedWrite written) []

/-- Trivia drawn from a place on. -/
def checkedDraw (start : Nat) : Trivia → Checked (List Drawn)
  | [] => .ok []
  | p :: t => do
    let stop ← p.checkedStop start
    let drawn ← p.checkedDraw? ⟨start, stop⟩
    return drawn.toList ++ (← checkedDraw stop t)

end Trivia

end SwiftColoring
