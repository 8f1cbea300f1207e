import SwiftColoring.Lexer.Lexeme
import SwiftColoring.Lexeme.Gap
import SwiftColoring.Token.Basic

/-!
# The next token

A token is the trivia before a lexeme, the lexeme, and the trivia behind it on the same line. Trivia
stands only between tokens of code; the text of a literal has none. A failure leaves the lexer where
the search stopped, and reading may go on from there.

* `next_budget_lt` — every token but the last uses up some of a budget that the source sets.
-/

namespace SwiftColoring.Lexer

/-- The trivia at the cursor, and the lexer behind it. After a block comment that never ends, nothing
is left. -/
def takeGap (l : Lexer) (trailing : Bool) : Except Failure Trivia × Lexer :=
  let gap := Gap.ofText trailing l.before.isEmpty l.rest
  let l := l.advance gap.length
  if gap.openComment then
    (.error (.openBlockComment ⟨l.pos, l.pos.after (l.rest.take 2)⟩), l.advance l.rest.length)
  else (.ok (Trivia.ofList gap.pieces), l)

/-- The trivia before a lexeme. -/
def takeLeading (l : Lexer) : Except Failure Trivia × Lexer :=
  if l.context.isCode then l.takeGap false else (.ok [], l)

/-- The trivia behind a lexeme of this kind; the end of the source has none. -/
def takeTrailing (l : Lexer) (kind : Kind) : Except Failure Trivia × Lexer :=
  if l.context.isCode && kind != .eof then l.takeGap true else (.ok [], l)

/-- The lexer behind a lexeme. -/
def accept (l : Lexer) (x : Lexeme) : Lexer :=
  { l.advance x.length with
    contexts := x.contexts
    angles := x.angles
    finished := l.finished || x.kind == .eof }

/-- The next token, or why there is none, and the lexer behind it. -/
def next (l : Lexer) : Except Failure Token × Lexer :=
  match l.takeLeading with
  | (.error failure, l) => (.error failure, l)
  | (.ok leading, l) =>
    match l.lexeme with
    | .error stop => (.error stop.failure, l.advance stop.length)
    | .ok x =>
      match (l.accept x).takeTrailing x.kind with
      | (.error failure, behind) => (.error failure, behind)
      | (.ok trailing, behind) =>
        (.ok ⟨x.kind, l.rest.take x.length, ⟨l.pos, (l.accept x).pos⟩, leading, trailing⟩, behind)

/-! ## The budget of tokens -/

/-- A bound on the number of tokens before the last. A parenthesis that opens an interpolation is
counted apart, since the backslash before it is a token of its own. -/
def budget (l : Lexer) : Nat :=
  2 * l.rest.length + match l.context with
    | .interpolationStart _ => 1
    | _ => 0

theorem takeGap_advance (l : Lexer) (trailing : Bool) :
    ∃ n, (l.takeGap trailing).2 = l.advance n := by
  unfold takeGap
  simp only
  split
  · exact ⟨_, congrArg (fun c => { l with toCursor := c }) (l.toCursor.advance_advance ..)⟩
  · exact ⟨_, rfl⟩

theorem takeLeading_advance (l : Lexer) : ∃ n, l.takeLeading.2 = l.advance n := by
  unfold takeLeading
  split
  · exact l.takeGap_advance false
  · exact ⟨0, by simp [advance]⟩

theorem takeTrailing_advance (l : Lexer) (kind : Kind) :
    ∃ n, (l.takeTrailing kind).2 = l.advance n := by
  unfold takeTrailing
  split
  · exact l.takeGap_advance true
  · exact ⟨0, by simp [advance]⟩

private theorem budget_le (l : Lexer) : l.budget ≤ 2 * l.rest.length + 1 := by
  unfold budget
  split <;> omega

private theorem budget_advance_le (l : Lexer) (n : Nat) : (l.advance n).budget ≤ l.budget := by
  simp only [budget, advance_context, advance_toCursor, Cursor.advance_rest, List.length_drop]
  omega

private theorem budget_accept_lt {l : Lexer} {x : Lexeme} (h : l.lexeme = .ok x) :
    x.kind = .eof ∨ (l.accept x).budget < l.budget := by
  rcases lexeme_length_pos h with hkind | ⟨hrest, hpos⟩ | ⟨opening, hcontext, hcontexts⟩
  · exact .inl hkind
  · -- the lexeme takes a character, which is worth two
    right
    have hlen : 0 < l.rest.length := List.length_pos_iff.mpr hrest
    have hle := (l.accept x).budget_le
    have heq : (l.accept x).rest = l.rest.drop x.length := rfl
    rw [heq, List.length_drop] at hle
    have : 2 * l.rest.length ≤ l.budget := Nat.le_add_right ..
    omega
  · -- the awaited parenthesis is paid for by the extra one, even where none stands
    right
    have heq : (l.accept x).rest = l.rest.drop x.length := rfl
    have hctx : (l.accept x).context = .interpolation 0 opening := by
      simp [context, accept, hcontexts, Context.innermost]
    simp only [budget, hctx, hcontext, heq, List.length_drop]
    omega

/-- A token uses up some of the budget, unless it is the last one, behind which the lexer is finished. -/
theorem next_budget_lt {l behind : Lexer} {t : Token} (h : l.next = (.ok t, behind)) :
    (t.kind = .eof ∧ behind.finished = true) ∨ behind.budget < l.budget := by
  unfold next at h
  obtain ⟨m, hm⟩ := l.takeLeading_advance
  split at h
  · simp at h
  · rename_i leading l₁ hleading
    rw [hleading] at hm
    simp only at hm
    subst hm
    split at h
    · simp at h
    · rename_i x hx
      obtain ⟨n, hn⟩ := ((l.advance m).accept x).takeTrailing_advance x.kind
      split at h
      · simp at h
      · rename_i trailing l₂ htrailing
        rw [htrailing] at hn
        simp only at hn
        obtain ⟨ht, rfl⟩ := Prod.mk.inj h
        obtain rfl := Except.ok.inj ht
        subst hn
        refine (budget_accept_lt hx).imp (fun hkind => ⟨hkind, ?_⟩) fun hlt => ?_
        · replace hkind : x.kind = .eof := hkind
          rw [advance_finished]
          simp [accept, hkind]
        -- trivia on either side can only lower the budget
        have h₁ := ((l.advance m).accept x).budget_advance_le n
        have h₂ := l.budget_advance_le m
        omega

end SwiftColoring.Lexer
