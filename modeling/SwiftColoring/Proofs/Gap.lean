import SwiftColoring.Lexeme.Gap

/-!
# What a gap takes

The trivia between two tokens is found piece by piece and merged as it is stored. Neither changes
a character: the pieces make up exactly the text that was passed, and none of them is empty. A gap
that ends well ends where no further piece starts, so that what follows it before a token of code
is a character that some token can start with.

* `Gap.text_isPrefix` — the pieces of a gap, in order, are the characters that the text starts
  with.
* `Gap.ofText_stop` — behind a gap no trivia starts.
* `Gap.ofText_of_trailing` — the trivia on both sides of a break is one gap.
* `startsToken_of_stop` — a character at which a gap stops is neither blank, nor a backtick, nor
  garbage.
-/

namespace SwiftColoring

-- ---------------------------------------------------------------------------
-- Merging keeps pieces from being empty
-- ---------------------------------------------------------------------------

/-- No piece becomes empty when one is added that is not. -/
theorem Trivia.text_ne_nil_of_mem_push {t : Trivia} {q p : Piece}
    (ht : ∀ r ∈ t, r.text ≠ []) (hq : q.text ≠ []) (hp : p ∈ push t q) : p.text ≠ [] := by
  rcases push_cases t q with ⟨hpush, -⟩ | ⟨init, unit, m, n, rfl, rfl, hpush⟩
  · rw [hpush, List.mem_append, List.mem_singleton] at hp
    rcases hp with hp | rfl
    · exact ht p hp
    · exact hq
  · rw [hpush, List.mem_append, List.mem_singleton] at hp
    rcases hp with hp | rfl
    · exact ht p (List.mem_append_left _ hp)
    · rw [Piece.text_run_add]
      exact List.append_ne_nil_of_right_ne_nil _ hq

/-- Nor when pieces are put together. -/
theorem Trivia.text_ne_nil_of_mem_ofList {pieces : List Piece} {p : Piece}
    (h : ∀ r ∈ pieces, r.text ≠ []) (hp : p ∈ ofList pieces) : p.text ≠ [] := by
  -- the trivia collected so far has no empty piece either
  have hfold : ∀ (pieces : List Piece) (t : Trivia), (∀ r ∈ pieces, r.text ≠ []) →
      (∀ r ∈ t, r.text ≠ []) → ∀ r ∈ pieces.foldl push t, r.text ≠ [] := by
    intro pieces
    induction pieces with
    | nil => exact fun t _ ht => ht
    | cons q pieces ih =>
      intro t hpieces ht
      have hq : q.text ≠ [] := hpieces q (List.mem_cons_self ..)
      exact ih (push t q) (fun r hr => hpieces r (List.mem_cons_of_mem _ hr))
        fun r hr => text_ne_nil_of_mem_push ht hq hr
  exact hfold pieces [] h (by simp) p hp

-- ---------------------------------------------------------------------------
-- The pieces of a gap
-- ---------------------------------------------------------------------------

namespace Gap

/-- The pieces of a gap hold what the text starts with. -/
theorem text_isPrefix (trailing atStart : Bool) (text : List Char) :
    Trivia.text (ofText trailing atStart text).pieces <+: text := by
  fun_induction ofText trailing atStart text with
  | case1 => exact List.nil_prefix
  | case2 => exact List.nil_prefix
  | case3 atStart text p h gap ih =>
    obtain ⟨-, rest, hrest⟩ := GapStart.ofText_eq_piece h
    have hsplit : p.text ++ text.drop p.text.length = text := by
      rw [← hrest, List.drop_left]
    obtain ⟨behind, hbehind⟩ := ih
    exact ⟨behind, by rw [Trivia.text_cons, List.append_assoc, hbehind, hsplit]⟩

/-- Every piece of a gap holds a character. -/
theorem text_ne_nil_of_mem {trailing atStart : Bool} {text : List Char} {p : Piece}
    (hp : p ∈ (ofText trailing atStart text).pieces) : p.text ≠ [] := by
  fun_induction ofText trailing atStart text with
  | case1 => simp at hp
  | case2 => simp at hp
  | case3 atStart text q h gap ih =>
    rcases List.mem_cons.mp hp with rfl | hp
    · exact (GapStart.ofText_eq_piece h).1
    · exact ih hp

/-- A gap goes on as long as a piece starts: behind it nothing starts, or the block comment that
never ends. A piece taken means that the gap does not stop at the start of the source. -/
theorem ofText_stop (trailing atStart : Bool) (text : List Char) :
    GapStart.ofText trailing (atStart && (ofText trailing atStart text).pieces.isEmpty)
      (text.drop (ofText trailing atStart text).length) =
        if (ofText trailing atStart text).openComment then .openComment else .nothing := by
  fun_induction ofText trailing atStart text with
  | case1 atStart text h => simpa [length] using h
  | case2 atStart text h => simpa [length] using h
  | case3 atStart text p h gap ih =>
    have hlength : (⟨p :: gap.pieces, gap.openComment⟩ : Gap).length =
        p.text.length + gap.length := by
      simp [length]
    rw [hlength, ← List.drop_drop, List.isEmpty_cons, Bool.and_false]
    rw [Bool.false_and] at ih
    exact ih

/-- A gap is empty where no trivia starts. -/
theorem ofText_of_nothing {trailing atStart : Bool} {text : List Char}
    (h : GapStart.ofText trailing atStart text = .nothing) :
    ofText trailing atStart text = ⟨[], false⟩ := by
  rw [ofText]
  split <;> simp_all

/-- It stops before a block comment that never ends, and says so. -/
theorem ofText_of_openComment {trailing atStart : Bool} {text : List Char}
    (h : GapStart.ofText trailing atStart text = .openComment) :
    ofText trailing atStart text = ⟨[], true⟩ := by
  rw [ofText]
  split <;> simp_all

/-- A piece that the text starts with is the first of the gap, whose others follow it. -/
theorem ofText_of_piece {trailing atStart : Bool} {text : List Char} {p : Piece}
    (h : GapStart.ofText trailing atStart text = .piece p) :
    ofText trailing atStart text = ⟨p :: (ofText trailing false (text.drop p.text.length)).pieces,
      (ofText trailing false (text.drop p.text.length)).openComment⟩ := by
  rw [ofText]
  split <;> simp_all

end Gap

/-- What ends no line is trivia on both sides of a token. -/
theorem GapStart.ofText_of_trailing {atStart : Bool} {text : List Char}
    (h : ofText true atStart text ≠ .nothing) : ofText false atStart text = ofText true atStart text := by
  unfold ofText at h ⊢
  split
  · rename_i u hu
    rw [hu] at h
    cases hbreak : u.isBreak with
    | true =>
      simp only [hbreak, Bool.and_self, if_true] at h
      exact absurd rfl h
    | false => rfl
  · rfl

namespace Gap

/-- The trivia behind a token and then that before the next one make up one gap. -/
theorem ofText_of_trailing (text : List Char) :
    ofText false false text =
      ⟨(ofText true false text).pieces ++
          (ofText false false (text.drop (ofText true false text).length)).pieces,
        (ofText false false (text.drop (ofText true false text).length)).openComment⟩ := by
  induction hlength : text.length using Nat.strongRecOn generalizing text with
  | ind n ih =>
    subst hlength
    cases hstart : GapStart.ofText true false text with
    | nothing =>
      rw [ofText_of_nothing hstart]
      rfl
    | openComment =>
      rw [ofText_of_openComment hstart]
      rfl
    | piece p =>
      obtain ⟨hne, hprefix⟩ := GapStart.ofText_eq_piece hstart
      have hpos := List.length_pos_iff.mpr hne
      have hle := hprefix.length_le
      have hleading := GapStart.ofText_of_trailing (by rw [hstart]; simp)
      have hshort : (text.drop p.text.length).length < text.length := by
        rw [List.length_drop]
        omega
      have hdrop : text.drop (Gap.length ⟨p :: (ofText true false (text.drop p.text.length)).pieces,
          (ofText true false (text.drop p.text.length)).openComment⟩) =
            (text.drop p.text.length).drop (ofText true false (text.drop p.text.length)).length := by
        rw [List.drop_drop, length, Trivia.text_cons, List.length_append]
        rfl
      rw [ofText_of_piece hstart, ofText_of_piece (hleading.trans hstart), hdrop,
        ih _ hshort (text.drop p.text.length) rfl]
      rfl

/-- A gap behind a token and the gap that follows it are as long as one gap in their place. -/
theorem length_of_trailing (text : List Char) :
    (ofText false false text).length = (ofText true false text).length +
      (ofText false false (text.drop (ofText true false text).length)).length := by
  rw [ofText_of_trailing text]
  simp only [length, Trivia.text, List.flatMap_append, List.length_append]

/-- A comment that never ends behind a token is one before the next token, too. -/
theorem openComment_of_trailing {text : List Char} (h : (ofText true false text).openComment = true) :
    (ofText false false (text.drop (ofText true false text).length)).openComment = true := by
  have hstop := ofText_stop true false text
  rw [h, Bool.false_and, if_pos rfl] at hstop
  have hleading := GapStart.ofText_of_trailing (by rw [hstop]; simp)
  rw [ofText_of_openComment (hleading.trans hstop)]

end Gap

-- ---------------------------------------------------------------------------
-- Where a gap stops
-- ---------------------------------------------------------------------------

/-- Some token of code can start with the character. -/
def startsToken (c : Char) : Bool := !(isWhitespace c || c == '`' || isGarbage c)

private theorem runUnit_of_blank {c : Char} (rest : List Char)
    (h : isWhitespace c = true ∨ c = '`') : (RunUnit.ofText? (c :: rest)).isSome = true := by
  simp only [isWhitespace, Bool.or_eq_true, beq_iff_eq, or_assoc] at h
  rcases h with rfl | rfl | rfl | rfl | rfl | rfl | rfl
  case inr.inr.inr.inl =>
    -- a carriage return is a unit with the line feed behind it or without
    unfold RunUnit.ofText?
    split <;> simp_all
  all_goals rfl

/-- Where a gap before a token stops, a token starts. -/
theorem startsToken_of_stop {atStart : Bool} {c : Char} {rest : List Char}
    (h : GapStart.ofText false atStart (c :: rest) = .nothing) : startsToken c = true := by
  unfold GapStart.ofText at h
  split at h
  · -- blanks and backticks start a piece, as no break is held back before a token
    simp at h
  · rename_i hunit
    have hblank : isWhitespace c = false := by
      refine Bool.eq_false_iff.mpr fun hc => ?_
      have hsome := runUnit_of_blank rest (.inl hc)
      rw [hunit] at hsome
      cases hsome
    have htick : (c == '`') = false := by
      refine Bool.eq_false_iff.mpr fun hc => ?_
      have hsome := runUnit_of_blank rest (.inr (eq_of_beq hc))
      rw [hunit] at hsome
      cases hsome
    have hgarbage : isGarbage c = false := by
      split at h
      · rename_i heq
        simp at h
      · rename_i heq
        split at h <;> simp at h
      · rename_i heq
        obtain ⟨rfl, -⟩ := List.cons.inj heq
        rfl
      · rename_i heq
        obtain ⟨rfl, -⟩ := List.cons.inj heq
        split at h
        · simp at h
        · rename_i hc
          exact Bool.eq_false_iff.mpr hc
      · rename_i heq
        simp at heq
    rw [startsToken, hblank, htick, hgarbage]
    rfl

end SwiftColoring
