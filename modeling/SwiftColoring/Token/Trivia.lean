import SwiftColoring.Text.Position

/-!
# Trivia

What stands between tokens: blanks, line breaks, comments, the backticks around an escaped word, and
characters that no token can start with. Repetitions of one blank are stored as a count. Pieces are
added at the end, and a repetition merges with one of the same blank before it.

* `Trivia.push_cases` — what adding a piece can do.
* `Trivia.text_push`, `Trivia.text_ofList` — merging changes no character.
* `Trivia.byteSize_eq` — the counted size is the number of bytes of the text.
-/

namespace SwiftColoring

/-- What a run repeats. -/
inductive RunUnit where
  | space
  | tab
  | verticalTab
  | formfeed
  | newline
  | carriageReturn
  /-- A carriage return and a line feed. -/
  | returnNewline
  | backtick
  deriving DecidableEq, Repr

namespace RunUnit

/-- The characters of one repetition. -/
def text : RunUnit → List Char
  | .space => [' ']
  | .tab => ['\t']
  | .verticalTab => ['\x0b']
  | .formfeed => ['\x0c']
  | .newline => ['\n']
  | .carriageReturn => ['\r']
  | .returnNewline => ['\r', '\n']
  | .backtick => ['`']

/-- The unit is a line break. -/
def isBreak : RunUnit → Bool
  | .newline | .carriageReturn | .returnNewline => true
  | _ => false

theorem byteLength_text (u : RunUnit) : byteLength u.text = u.text.length := by
  cases u <;> rfl

end RunUnit

/-- One piece of trivia. -/
inductive Piece where
  /-- A unit, a number of times. -/
  | run (unit : RunUnit) (count : Nat)
  /-- A comment to the end of its line. -/
  | lineComment (doc : Bool) (text : List Char)
  /-- A comment between its markers, comments inside it included. -/
  | blockComment (doc : Bool) (text : List Char)
  /-- Characters that belong to no token. -/
  | garbage (text : List Char)
  deriving DecidableEq, Repr

namespace Piece

/-- The characters of the piece. -/
def text : Piece → List Char
  | .run unit count => (List.replicate count unit.text).flatten
  | .lineComment _ text | .blockComment _ text | .garbage text => text

/-- The size of the piece in bytes. -/
def byteSize : Piece → Nat
  | .run unit count => unit.text.length * count
  | .lineComment _ text | .blockComment _ text | .garbage text => byteLength text

theorem byteSize_eq (p : Piece) : p.byteSize = byteLength p.text := by
  cases p with
  | run unit count =>
    induction count with
    | zero => rfl
    | succ count ih =>
      simp only [byteSize, text] at ih ⊢
      rw [List.replicate_succ, List.flatten_cons, byteLength_append, ← ih, unit.byteLength_text,
        Nat.mul_succ, Nat.add_comm]
  | lineComment | blockComment | garbage => rfl

/-- The one run that says the same as two pieces in a row, if they repeat the same unit. -/
def merge? : Piece → Piece → Option Piece
  | .run u m, .run v n => if u = v then some (.run u (m + n)) else none
  | _, _ => none

theorem merge?_eq_some {p q r : Piece} (h : p.merge? q = some r) :
    ∃ unit m n, p = .run unit m ∧ q = .run unit n ∧ r = .run unit (m + n) := by
  cases p <;> cases q <;> simp only [merge?, reduceCtorEq] at h
  rename_i unit m other n
  split at h
  · rename_i hsame
    obtain rfl := hsame
    exact ⟨unit, m, n, rfl, rfl, (Option.some.inj h).symm⟩
  · cases h

theorem text_run_add (unit : RunUnit) (m n : Nat) :
    (run unit (m + n)).text = (run unit m).text ++ (run unit n).text := by
  rw [text, ← List.replicate_append_replicate, List.flatten_append]
  rfl

end Piece

/-- The trivia on one side of a token, in source order. -/
abbrev Trivia := List Piece

namespace Trivia

/-- The trivia with a piece added at its end. -/
def push : Trivia → Piece → Trivia
  | [], p => [p]
  | [q], p => (q.merge? p).elim [q, p] fun merged => [merged]
  | q :: r :: t, p => q :: push (r :: t) p

/-- The trivia of pieces added in turn. -/
def ofList (pieces : List Piece) : Trivia := pieces.foldl push []

/-- The characters of the trivia. -/
def text (t : Trivia) : List Char := t.flatMap Piece.text

/-- The size of the trivia in bytes. -/
def byteSize : Trivia → Nat
  | [] => 0
  | p :: t => p.byteSize + byteSize t

@[simp] theorem text_nil : text [] = [] := rfl

@[simp] theorem text_cons (p : Piece) (t : Trivia) : text (p :: t) = p.text ++ text t := by
  simp [text]

/-- A piece that is added becomes the last one, or a part of it. -/
theorem push_cases (t : Trivia) (p : Piece) :
    (push t p = t ++ [p] ∧ ∀ q ∈ t.getLast?, q.merge? p = none) ∨
      ∃ init unit m n, t = init ++ [.run unit m] ∧ p = .run unit n ∧
        push t p = init ++ [.run unit (m + n)] := by
  fun_induction push t p with
  | case1 p => exact .inl ⟨rfl, by simp⟩
  | case2 q p =>
    cases hmerge : q.merge? p with
    | none =>
      refine .inl ⟨rfl, fun r hr => ?_⟩
      obtain rfl := Option.some.inj hr
      exact hmerge
    | some merged =>
      obtain ⟨unit, m, n, rfl, rfl, rfl⟩ := Piece.merge?_eq_some hmerge
      exact .inr ⟨[], unit, m, n, rfl, rfl, rfl⟩
  | case3 q r t p ih =>
    rcases ih with ⟨hpush, hlast⟩ | ⟨init, unit, m, n, ht, hp, hpush⟩
    · refine .inl ⟨by rw [hpush]; rfl, fun s hs => hlast s ?_⟩
      rwa [List.getLast?_cons_cons] at hs
    · exact .inr ⟨q :: init, unit, m, n, by rw [ht]; rfl, hp, by rw [hpush]; rfl⟩

theorem ofList_concat (pieces : List Piece) (p : Piece) :
    ofList (pieces ++ [p]) = push (ofList pieces) p := by
  rw [ofList, List.foldl_append]
  rfl

section

variable {α : Type} {f : Piece → List α}
  (hrun : ∀ unit m n, f (.run unit (m + n)) = f (.run unit m) ++ f (.run unit n))
include hrun

/-- What is read off a run as off its parts is read off trivia as off its pieces, merged or not. -/
theorem flatMap_push (t : Trivia) (p : Piece) : (push t p).flatMap f = t.flatMap f ++ f p := by
  rcases push_cases t p with ⟨hpush, -⟩ | ⟨init, unit, m, n, rfl, rfl, hpush⟩
  · rw [hpush, List.flatMap_append, List.flatMap_singleton]
  · rw [hpush, List.flatMap_append, List.flatMap_append, List.flatMap_singleton,
      List.flatMap_singleton, hrun, List.append_assoc]

theorem flatMap_ofList (pieces : List Piece) : (ofList pieces).flatMap f = pieces.flatMap f := by
  have hfold : ∀ (pieces : List Piece) (t : Trivia),
      (pieces.foldl push t).flatMap f = t.flatMap f ++ pieces.flatMap f := by
    intro pieces
    induction pieces with
    | nil => exact fun t => (List.append_nil _).symm
    | cons p pieces ih =>
      intro t
      rw [List.foldl_cons, ih, flatMap_push hrun, List.flatMap_cons, List.append_assoc]
  exact hfold pieces []

end

@[simp] theorem text_push (t : Trivia) (p : Piece) : text (push t p) = text t ++ p.text :=
  flatMap_push Piece.text_run_add t p

@[simp] theorem text_ofList (pieces : List Piece) :
    text (ofList pieces) = pieces.flatMap Piece.text :=
  flatMap_ofList Piece.text_run_add pieces

theorem byteSize_eq (t : Trivia) : byteSize t = byteLength (text t) := by
  induction t with
  | nil => rfl
  | cons p t ih =>
    rw [text_cons, byteLength_append, ← ih, ← p.byteSize_eq]
    rfl

end Trivia

end SwiftColoring
