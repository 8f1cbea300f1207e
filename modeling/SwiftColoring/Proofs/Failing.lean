import SwiftColoring.Proofs.Reachable

/-!
# What a call does that fails

A call fails for one of four reasons: a block comment, a literal, an interpolation or a raw string
that does not end. A comment is met in the trivia on either side of a lexeme, the others where the
lexeme is looked for. What is said about failures is proved along these cases.

* `GapStart.eq_cons_of_openComment` — trivia fails at a comment only.
* `Lexer.callFails_next` — every way a call can fail.
-/

namespace SwiftColoring

/-- Trivia fails only at a comment that no marker closes. -/
theorem GapStart.eq_cons_of_openComment {trailing atStart : Bool} {text : List Char}
    (h : ofText trailing atStart text = .openComment) :
    ∃ rest, text = '/' :: '*' :: rest ∧ Comment.closing? 0 rest = none := by
  unfold ofText at h
  split at h
  · split at h <;> cases h
  · split at h
    · cases h
    · split at h
      · cases h
      · rename_i hlength
        exact ⟨_, rfl, Option.map_eq_none_iff.mp hlength⟩
    · split at h <;> cases h
    · split at h <;> cases h
    · cases h

namespace Lexer

-- ---------------------------------------------------------------------------
-- Calls that fail
-- ---------------------------------------------------------------------------

/-- The lexer passes trivia up to a block comment that never ends. -/
structure MeetsOpenComment (l : Lexer) (trailing : Bool) (here : Lexer) : Prop where
  eq_advance : here = l.advance (Gap.ofText trailing l.before.isEmpty l.rest).length
  isCode : l.context.isCode = true
  openComment : (Gap.ofText trailing l.before.isEmpty l.rest).openComment = true

/-- Every way a call can fail, and the lexer behind it. -/
inductive CallFails (l : Lexer) : Failure → Lexer → Prop where
  /-- The trivia before the lexeme does not end. -/
  | leading {here : Lexer} (hmeets : l.MeetsOpenComment false here) :
      CallFails l (.openBlockComment ⟨here.pos, here.pos.after (here.rest.take 2)⟩)
        (here.advance here.rest.length)
  /-- There is no lexeme. -/
  | lexeme {leading : Trivia} {here : Lexer} {stop : Interruption}
      (hleading : l.takeLeading = (.ok leading, here)) (hstop : here.lexeme = .error stop) :
      CallFails l stop.failure (here.advance stop.length)
  /-- The trivia behind the lexeme does not end. -/
  | trailing {leading : Trivia} {here behind : Lexer} {x : Lexeme}
      (hleading : l.takeLeading = (.ok leading, here)) (hx : here.lexeme = .ok x) (hkind : x.kind ≠ .eof)
      (hmeets : (here.accept x).MeetsOpenComment true behind) :
      CallFails l (.openBlockComment ⟨behind.pos, behind.pos.after (behind.rest.take 2)⟩)
        (behind.advance behind.rest.length)

variable {l here behind : Lexer} {trailing : Bool} {failure : Failure}

private theorem takeGap_error (hcode : l.context.isCode = true)
    (h : l.takeGap trailing = (.error failure, behind)) :
    ∃ here, l.MeetsOpenComment trailing here ∧
      failure = .openBlockComment ⟨here.pos, here.pos.after (here.rest.take 2)⟩ ∧
      behind = here.advance here.rest.length := by
  unfold takeGap at h
  simp only at h
  split at h
  · rename_i hopen
    obtain ⟨hfailure, rfl⟩ := Prod.mk.inj h
    exact ⟨_, ⟨rfl, hcode, hopen⟩, (Except.error.inj hfailure).symm, rfl⟩
  · cases h

theorem callFails_next (h : l.next = (.error failure, behind)) : l.CallFails failure behind := by
  unfold next at h
  split at h
  · rename_i failure' behind' hleading
    obtain ⟨hfailure, rfl⟩ := Prod.mk.inj h
    obtain rfl := Except.error.inj hfailure
    have hcode := isCode_of_takeLeading_error hleading
    unfold takeLeading at hleading
    rw [if_pos hcode] at hleading
    obtain ⟨here, hmeets, rfl, rfl⟩ := takeGap_error hcode hleading
    exact .leading hmeets
  rename_i leading here hleading
  split at h
  · rename_i stop hstop
    obtain ⟨hfailure, rfl⟩ := Prod.mk.inj h
    obtain rfl := Except.error.inj hfailure
    exact .lexeme hleading hstop
  rename_i x hx
  split at h
  · rename_i failure' behind' htrailing
    obtain ⟨hfailure, rfl⟩ := Prod.mk.inj h
    obtain rfl := Except.error.inj hfailure
    unfold takeTrailing at htrailing
    split at htrailing
    · rename_i hlooks
      rw [Bool.and_eq_true] at hlooks
      obtain ⟨last, hmeets, rfl, rfl⟩ := takeGap_error hlooks.1 htrailing
      exact .trailing hleading hx (bne_iff_ne.mp hlooks.2) hmeets
    · cases htrailing
  · cases h

namespace MeetsOpenComment

theorem rest_eq (h : l.MeetsOpenComment trailing here) :
    ∃ rest, here.rest = '/' :: '*' :: rest ∧ Comment.closing? 0 rest = none := by
  have hstop := Gap.ofText_stop trailing l.before.isEmpty l.rest
  rw [h.openComment, if_pos rfl] at hstop
  rw [h.eq_advance]
  exact GapStart.eq_cons_of_openComment hstop

end MeetsOpenComment

end Lexer

end SwiftColoring
