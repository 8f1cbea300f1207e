/-!
# Places in a source text

A place is counted three ways at once: the line, the column within the line in characters, and the
offset in bytes, all from zero. Only a line feed starts a new line. Places advance over characters, so
the place after a text is a fold over it.

* `Pos.after_append` — moving over two texts in turn is moving over their concatenation.
* `Pos.after_offset` — the offset grows by the number of bytes moved over.
-/

namespace SwiftColoring

/-- The number of bytes of the UTF-8 form of a text. -/
def byteLength : List Char → Nat
  | [] => 0
  | c :: text => c.utf8Size + byteLength text

@[simp] theorem byteLength_nil : byteLength [] = 0 := rfl

@[simp] theorem byteLength_cons (c : Char) (text : List Char) :
    byteLength (c :: text) = c.utf8Size + byteLength text := rfl

@[simp] theorem byteLength_append (a b : List Char) :
    byteLength (a ++ b) = byteLength a + byteLength b := by
  induction a with
  | nil => simp
  | cons c a ih =>
    rw [List.cons_append, byteLength_cons, byteLength_cons, ih]
    omega

/-- A place in a source text, between two characters. -/
structure Pos where
  line : Nat
  column : Nat
  offset : Nat
  deriving DecidableEq, Repr, Inhabited

namespace Pos

/-- The place before the first character. -/
def origin : Pos := ⟨0, 0, 0⟩

/-- The place behind one more character. -/
def advance (p : Pos) (c : Char) : Pos :=
  if c = '\n' then ⟨p.line + 1, 0, p.offset + c.utf8Size⟩
  else ⟨p.line, p.column + 1, p.offset + c.utf8Size⟩

/-- The place behind a text that starts here. -/
def after (p : Pos) (text : List Char) : Pos := text.foldl advance p

/-- Lines first, then columns, then offsets. -/
def order (p q : Pos) : Ordering :=
  (compare p.line q.line).then <| (compare p.column q.column).then <| compare p.offset q.offset

/-- Line and column as readers count them, from one. -/
def render (p : Pos) : String := s!"{p.line + 1}:{p.column + 1}"

@[simp] theorem after_nil (p : Pos) : p.after [] = p := rfl

@[simp] theorem after_cons (p : Pos) (c : Char) (text : List Char) :
    p.after (c :: text) = (p.advance c).after text := rfl

@[simp] theorem after_append (p : Pos) (a b : List Char) :
    p.after (a ++ b) = (p.after a).after b := by
  simp [after]

theorem advance_offset (p : Pos) (c : Char) : (p.advance c).offset = p.offset + c.utf8Size := by
  unfold advance
  split <;> rfl

theorem after_offset (p : Pos) (text : List Char) :
    (p.after text).offset = p.offset + byteLength text := by
  induction text generalizing p with
  | nil => simp
  | cons c text ih => rw [after_cons, ih, advance_offset, byteLength_cons]; omega

end Pos

/-- A stretch of source text between two places. -/
structure Span where
  start : Pos
  stop : Pos
  deriving DecidableEq, Repr, Inhabited

namespace Span

/-- The empty stretch at a place. -/
def point (p : Pos) : Span := ⟨p, p⟩

/-- The number of lines the stretch touches. -/
def lineCount (s : Span) : Nat := s.stop.line - s.start.line + 1

/-- A stretch is shown by where it starts. -/
def render (s : Span) : String := s.start.render

end Span

end SwiftColoring
