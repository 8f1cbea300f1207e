import SwiftColoring.Proofs.Stop

/-!
# What a closing parenthesis ends

A closing parenthesis is no trivia and goes on with none, so that it ends a gap as the end of a source
would. Only a line comment reads on past it. Nor does it make a keyword of a word before it.

* `Gap.ofText_append_paren` — trivia.
* `Word.actsAsKeyword_paren` — words.
-/

namespace SwiftColoring

variable (text more : List Char)

theorem stops_paren : Stops (')' :: more) := .cons (by decide) more

-- ---------------------------------------------------------------------------
-- Trivia
-- ---------------------------------------------------------------------------

/-- The piece is a comment to the end of its line. -/
def Piece.isLineComment : Piece → Bool
  | .lineComment .. => true
  | _ => false

/-- What a text starts with is what it starts with when a parenthesis follows, unless a comment in it
goes on. -/
theorem GapStart.ofText_append_paren (hopen : ofText false false text ≠ .openComment)
    (hcomment : ∀ p, ofText false false text = .piece p → p.isLineComment = true →
      p.text.length < text.length) :
    ofText false false (text ++ ')' :: more) = ofText false false text := by
  by_cases hne : text = []
  · subst hne
    rfl
  refine ofText_append_stop (stops_paren more) hne ⟨fun _ => by simp, fun u _ hu => ?_, ?_, ?_⟩
  · cases hu
  · rintro (⟨rest, rfl⟩ | ⟨hstart, -⟩)
    · have hlength : (('/' :: '/' :: rest).takeWhile fun c => !isLineBreak c).length <
          ('/' :: '/' :: rest).length := hcomment _ rfl rfl
      exact List.takeWhile_append.trans (if_neg (Nat.ne_of_lt hlength))
    · cases hstart
  · rintro rest rfl
    cases hclosing : Comment.closing? 0 rest with
    | some n => exact Comment.closing?_append hclosing _
    | none =>
      refine absurd ?_ hopen
      have hlength : Comment.blockLength? ('/' :: '*' :: rest) = none :=
        congrArg (Option.map (· + 2)) hclosing
      have hunit : RunUnit.ofText? ('/' :: '*' :: rest) = none := rfl
      unfold ofText
      simp only [hunit, hlength]

/-- The trivia ends in a comment to the end of its line. -/
def Trivia.endsInLineComment (t : Trivia) : Bool := t.getLast?.any Piece.isLineComment

theorem Trivia.endsInLineComment_cons (p : Piece) {t : Trivia} (ht : t ≠ []) :
    endsInLineComment (p :: t) = endsInLineComment t := by
  obtain ⟨q, rest, rfl⟩ := List.exists_cons_of_ne_nil ht
  rw [endsInLineComment, endsInLineComment, List.getLast?_cons_cons]

/-- Merging does not change whether a line comment comes last. -/
theorem Trivia.getLast?_ofList (pieces : List Piece) :
    (ofList pieces).getLast?.map Piece.isLineComment = pieces.getLast?.map Piece.isLineComment := by
  have hpush : ∀ (t : Trivia) (p : Piece),
      (push t p).getLast?.map Piece.isLineComment = some p.isLineComment := by
    intro t p
    -- only runs are merged
    rcases push_cases t p with ⟨hpush, -⟩ | ⟨init, unit, m, n, rfl, rfl, hpush⟩
    · rw [hpush, List.getLast?_concat]
      rfl
    · rw [hpush, List.getLast?_concat]
      rfl
  rcases List.eq_nil_or_concat pieces with rfl | ⟨init, p, rfl⟩
  · rfl
  · rw [List.concat_eq_append, ofList_concat, List.getLast?_concat]
    exact hpush _ p

theorem Trivia.endsInLineComment_append_ofList (a b : List Piece) :
    endsInLineComment (ofList a ++ ofList b) = endsInLineComment (a ++ b) := by
  have hmap : ∀ t : Trivia,
      endsInLineComment t = (t.getLast?.map Piece.isLineComment).getD false := by
    intro t
    unfold endsInLineComment
    cases t.getLast? <;> rfl
  rw [hmap, hmap, List.getLast?_append, List.getLast?_append, Option.map_or, Option.map_or,
    getLast?_ofList, getLast?_ofList]

theorem Trivia.endsInLineComment_ofList (pieces : List Piece) :
    endsInLineComment (ofList pieces) = endsInLineComment pieces :=
  endsInLineComment_append_ofList [] pieces

namespace Gap

/-- The gap that a text starts with is the same when a parenthesis follows, unless a comment in it goes
on. -/
theorem ofText_append_paren (hopen : (ofText false false text).openComment = false)
    (hcomment : Trivia.endsInLineComment (ofText false false text).pieces = true →
      (ofText false false text).length < text.length) :
    ofText false false (text ++ ')' :: more) = ofText false false text := by
  induction hlength : text.length using Nat.strongRecOn generalizing text with
  | ind n ih =>
    subst hlength
    cases hstart : GapStart.ofText false false text with
    | openComment =>
      rw [ofText] at hopen
      split at hopen <;> simp_all
    | nothing =>
      have hsame := GapStart.ofText_append_paren text more (by simp [hstart]) (by simp [hstart])
      rw [ofText_of_nothing hstart, ofText_of_nothing (hsame.trans hstart)]
    | piece p =>
      obtain ⟨hne, hprefix⟩ := GapStart.ofText_eq_piece hstart
      have hpos := List.length_pos_iff.mpr hne
      have hle := hprefix.length_le
      have hdrop : (text ++ ')' :: more).drop p.text.length = text.drop p.text.length ++ ')' :: more :=
        List.drop_append_of_le_length hle
      rw [ofText_of_piece hstart] at hopen hcomment
      simp only [length, Trivia.text_cons, List.length_append] at hopen hcomment
      generalize hgap : ofText false false (text.drop p.text.length) = gap at hopen hcomment
      have hgapLe := (text_isPrefix false false (text.drop p.text.length)).length_le
      rw [hgap, List.length_drop] at hgapLe
      have hpiece : p.isLineComment = true → p.text.length < text.length := by
        intro hline
        cases hpieces : gap.pieces with
        | nil =>
          rw [hpieces] at hcomment
          exact hcomment hline
        | cons q pieces =>
          -- the gap goes on behind the comment
          have hq : q.text ≠ [] :=
            text_ne_nil_of_mem (by rw [hgap, hpieces]; exact List.mem_cons_self ..)
          have hqpos := List.length_pos_iff.mpr hq
          rw [hpieces, Trivia.text_cons, List.length_append] at hgapLe
          omega
      have hrest : (text.drop p.text.length).length < text.length := by
        rw [List.length_drop]
        omega
      have hsame : ofText false false (text.drop p.text.length ++ ')' :: more) = gap := by
        refine (ih _ hrest _ (by rw [hgap]; exact hopen) (fun hends => ?_) rfl).trans hgap
        rw [hgap] at hends ⊢
        have hne' : gap.pieces ≠ [] := by
          intro hnil
          rw [hnil] at hends
          cases hends
        have hlt := hcomment (by rw [Trivia.endsInLineComment_cons p hne']; exact hends)
        rw [List.length_drop]
        unfold length
        omega
      have hstart' : GapStart.ofText false false (text ++ ')' :: more) = .piece p := by
        rw [GapStart.ofText_append_paren text more (by simp [hstart]) fun q hq hline => ?_, hstart]
        obtain rfl := GapStart.piece.inj (hstart.symm.trans hq)
        exact hpiece hline
      rw [ofText_of_piece hstart', hdrop, hsame, ofText_of_piece hstart, hgap]

end Gap

-- ---------------------------------------------------------------------------
-- Words
-- ---------------------------------------------------------------------------

/-- A word is no keyword for a parenthesis that closes behind it, as it is none for the end of a
source. -/
theorem Word.actsAsKeyword_paren (word : List Char) :
    actsAsKeyword word (')' :: more) = actsAsKeyword word [] := by
  show followsModifier (leading ([] ++ ')' :: more)) = false
  rw [leading_append_stop (stops_paren more)]
  decide

end SwiftColoring
