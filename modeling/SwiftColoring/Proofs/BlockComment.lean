import SwiftColoring.Proofs.Calls
import SwiftColoring.Proofs.Pieces
import SwiftColoring.Proofs.Stop

/-!
# Block comments are nested comments

The search for the end of a block comment counts how many comments are open and looks at two characters
at a time. The grammar knows neither: a comment stands between its markers and holds items, each of
which is a comment or a character with which no marker starts. The two agree on every text, so that a
text starts with at most one comment, which is what the search takes. Where it starts with none, the
comment never ends and nothing is left behind it.

* `Comment.IsBlock`, `Comment.IsBody` — the grammar.
* `Comment.closing?_of_isBody` — the search passes what the grammar generates.
* `Comment.exists_bodies_of_closing?` — what it passes is generated by the grammar.
* `Lexer.takeGap_of_piece` — reading goes on directly behind a piece.
* `block_comments_nest` — the whole statement.
-/

namespace SwiftColoring

namespace Comment

-- ---------------------------------------------------------------------------
-- The grammar
-- ---------------------------------------------------------------------------

mutual

/-- A whole block comment. -/
inductive IsBlock : List Char → Prop where
  | marked {body : List Char} (hbody : IsBody body) : IsBlock ('/' :: '*' :: body ++ ['*', '/'])

/-- The items between the markers of a comment. -/
inductive IsBody : List Char → Prop where
  | nil : IsBody []
  /-- No marker starts with the character, the closing one behind the items included. -/
  | char {c : Char} {body : List Char} (hopens : ¬ ['/', '*'] <+: c :: (body ++ ['*', '/']))
      (hcloses : ¬ ['*', '/'] <+: c :: (body ++ ['*', '/'])) (hbody : IsBody body) : IsBody (c :: body)
  | comment {inner body : List Char} (hinner : IsBlock inner) (hbody : IsBody body) :
      IsBody (inner ++ body)

end

-- ---------------------------------------------------------------------------
-- The search passes what the grammar generates
-- ---------------------------------------------------------------------------

/-- Which of the markers a character starts shows in the two characters there. -/
theorem closing?_cons {c : Char} {rest : List Char} (hopens : ¬ ['/', '*'] <+: c :: rest)
    (hcloses : ¬ ['*', '/'] <+: c :: rest) (nested : Nat) :
    closing? nested (c :: rest) = (closing? nested rest).map (· + 1) := by
  rw [closing?]
  · rintro rest rfl rfl
    exact hopens ⟨rest, rfl⟩
  · rintro rest rfl rfl
    exact hcloses ⟨rest, rfl⟩

/-- Behind the items of a comment, its closing marker says the same as more text that starts with it. -/
theorem prefix_marker_iff {a b c : Char} {body rest : List Char} :
    [a, b] <+: c :: (body ++ '*' :: '/' :: rest) ↔ [a, b] <+: c :: (body ++ ['*', '/']) := by
  cases body <;> simp [List.cons_prefix_cons]

mutual

theorem closing?_of_isBlock (nested : Nat) (rest : List Char) : ∀ {text : List Char}, IsBlock text →
    closing? nested (text ++ rest) = (closing? nested rest).map (· + text.length)
  | _, @IsBlock.marked body hbody => by
    have hinner := closing?_of_isBody (nested + 1) rest hbody
    rw [closing?, Option.map_map] at hinner
    rw [List.cons_append, List.cons_append, List.append_assoc, List.cons_append, closing?]
    show (closing? (nested + 1) (body ++ '*' :: '/' :: rest)).map (· + 2) = _
    rw [hinner, Option.map_map]
    refine congrArg (Option.map · _) (funext fun n => ?_)
    simp only [Function.comp_apply, List.length_cons, List.length_append, List.length_nil]
    omega

/-- The search passes the items of a comment and goes on at the marker behind them. -/
theorem closing?_of_isBody (nested : Nat) (rest : List Char) : ∀ {body : List Char}, IsBody body →
    closing? nested (body ++ '*' :: '/' :: rest) =
      (closing? nested ('*' :: '/' :: rest)).map (· + body.length)
  | _, .nil => by
    rw [List.nil_append]
    exact Option.map_id'.symm
  | _, .char hopens hcloses hbody => by
    rw [List.cons_append, closing?_cons (mt prefix_marker_iff.mp hopens)
      (mt prefix_marker_iff.mp hcloses), closing?_of_isBody nested rest hbody, Option.map_map]
    rfl
  | _, .comment hinner hbody => by
    rw [List.append_assoc, closing?_of_isBlock nested _ hinner, closing?_of_isBody nested rest hbody,
      Option.map_map, List.length_append]
    refine congrArg (Option.map · _) (funext fun n => ?_)
    simp only [Function.comp_apply]
    omega

end

-- ---------------------------------------------------------------------------
-- What the search passes is generated by the grammar
-- ---------------------------------------------------------------------------

/-- What the search passes are the items of the comments that are open, innermost first, each with its
closing marker. -/
theorem exists_bodies_of_closing? {nested n : Nat} {text : List Char}
    (h : closing? nested text = some n) :
    ∃ bodies : List (List Char), bodies.length = nested + 1 ∧ (∀ body ∈ bodies, IsBody body) ∧
      text.take n = bodies.flatMap (· ++ ['*', '/']) := by
  fun_induction closing? nested text generalizing n with
  | case1 => cases h
  | case2 nested rest ih =>
    -- the comment that opens here is an item of the one around it
    obtain ⟨m, hm, rfl⟩ := Option.map_eq_some_iff.mp h
    obtain ⟨bodies, hlength, hbodies, htake⟩ := ih hm
    obtain ⟨inner, outer, rfl⟩ := List.exists_cons_of_length_eq_add_one hlength
    obtain ⟨body, others, rfl⟩ := List.exists_cons_of_length_eq_add_one (Nat.succ.inj hlength)
    obtain ⟨hinner, hbody, hothers⟩ : IsBody inner ∧ IsBody body ∧ ∀ other ∈ others, IsBody other := by
      simpa only [List.forall_mem_cons] using hbodies
    refine ⟨('/' :: '*' :: inner ++ ['*', '/'] ++ body) :: others, Nat.succ.inj hlength, ?_, ?_⟩
    · exact List.forall_mem_cons.mpr ⟨.comment (.marked hinner) hbody, hothers⟩
    · rw [List.take_succ_cons, List.take_succ_cons, htake]
      simp only [List.flatMap_cons, List.append_assoc, List.cons_append, List.nil_append]
  | case3 rest =>
    obtain rfl := Option.some.inj h
    exact ⟨[[]], rfl, List.forall_mem_singleton.mpr .nil, rfl⟩
  | case4 rest nested ih =>
    obtain ⟨m, hm, rfl⟩ := Option.map_eq_some_iff.mp h
    obtain ⟨bodies, hlength, hbodies, htake⟩ := ih hm
    refine ⟨[] :: bodies, congrArg (· + 1) hlength, List.forall_mem_cons.mpr ⟨.nil, hbodies⟩, ?_⟩
    rw [List.take_succ_cons, List.take_succ_cons, htake]
    rfl
  | case5 nested c rest hopens hcloses ih =>
    obtain ⟨m, hm, rfl⟩ := Option.map_eq_some_iff.mp h
    obtain ⟨bodies, hlength, hbodies, htake⟩ := ih hm
    obtain ⟨body, others, rfl⟩ := List.exists_cons_of_length_eq_add_one hlength
    obtain ⟨hbody, hothers⟩ := List.forall_mem_cons.mp hbodies
    -- the character before the items sees the same character behind it in the text
    have hsplit : rest = body ++ '*' :: '/' :: (others.flatMap (· ++ ['*', '/']) ++ rest.drop m) := by
      conv => lhs; rw [← List.take_append_drop m rest, htake]
      simp only [List.flatMap_cons, List.append_assoc, List.cons_append, List.nil_append]
    have hmarker : ∀ {a b : Char}, [a, b] <+: c :: (body ++ ['*', '/']) → [a, b] <+: c :: rest := by
      intro a b hstarts
      rw [hsplit]
      exact prefix_marker_iff.mpr hstarts
    refine ⟨(c :: body) :: others, hlength, List.forall_mem_cons.mpr ⟨.char ?_ ?_ hbody, hothers⟩, ?_⟩
    · intro hstarts
      obtain ⟨more, hmore⟩ := hmarker hstarts
      obtain ⟨rfl, hrest⟩ := List.cons.inj hmore
      exact hopens more rfl hrest.symm
    · intro hstarts
      obtain ⟨more, hmore⟩ := hmarker hstarts
      obtain ⟨rfl, hrest⟩ := List.cons.inj hmore
      exact hcloses more rfl hrest.symm
    · rw [List.take_succ_cons, htake]
      rfl

-- ---------------------------------------------------------------------------
-- Comments at the front of a text
-- ---------------------------------------------------------------------------

variable {comment rest : List Char}

/-- The comment that a text starts with is as long as the search says. -/
theorem blockLength?_of_isBlock (h : IsBlock comment) (rest : List Char) :
    blockLength? (comment ++ rest) = some comment.length := by
  cases h with
  | @marked body hbody =>
    have hclosing := closing?_of_isBody 0 rest hbody
    rw [closing?, Option.map_some] at hclosing
    have hdrop : ('/' :: '*' :: body ++ ['*', '/'] ++ rest).drop 2 = body ++ '*' :: '/' :: rest := by
      rw [List.append_assoc]
      rfl
    rw [blockLength?, hdrop, hclosing, Option.map_some]
    simp only [List.length_append, List.length_cons, List.length_nil, Option.some.injEq]
    omega

theorem isBlock_of_blockLength? {n : Nat} (h : blockLength? ('/' :: '*' :: rest) = some n) :
    IsBlock (('/' :: '*' :: rest).take n) := by
  obtain ⟨m, hm, rfl⟩ := Option.map_eq_some_iff.mp h
  obtain ⟨bodies, hlength, hbodies, htake⟩ := exists_bodies_of_closing? hm
  obtain ⟨body, rfl⟩ := List.length_eq_one_iff.mp hlength
  replace htake : rest.take m = body ++ ['*', '/'] := htake.trans (List.flatMap_singleton ..)
  rw [List.take_succ_cons, List.take_succ_cons, htake]
  exact .marked (List.forall_mem_singleton.mp hbodies)

/-- No text starts with two comments. -/
theorem IsBlock.eq_of_starts {other text : List Char} (h : IsBlock comment) (hother : IsBlock other)
    (hstarts : comment <+: text) (hstarts' : other <+: text) : comment = other := by
  have hlength : comment.length = other.length := by
    obtain ⟨rest, rfl⟩ := hstarts
    obtain ⟨rest', hrest'⟩ := hstarts'
    have hother' := blockLength?_of_isBlock hother rest'
    rw [hrest', blockLength?_of_isBlock h] at hother'
    exact Option.some.inj hother'
  exact (List.prefix_of_prefix_length_le hstarts hstarts' (Nat.le_of_eq hlength)).eq_of_length hlength

/-- The comment starts like documentation, and not because its closing marker follows at once. -/
def IsDocBlock (comment : List Char) : Prop :=
  ['/', '*', '*'] <+: comment ∧ ¬ ['/', '*', '*', '/'] <+: comment

instance (comment : List Char) : Decidable (IsDocBlock comment) :=
  inferInstanceAs (Decidable (_ ∧ _))

/-- Whether a comment is documentation shows in its own text. -/
theorem isDoc_of_isBlock (h : IsBlock comment) (rest : List Char) :
    isDoc '*' (comment ++ rest) = decide (IsDocBlock comment) := by
  rw [Bool.eq_iff_iff, decide_eq_true_iff, IsDocBlock]
  cases h with
  | @marked body =>
    match body with
    | [] => simp [isDoc]
    | [third] =>
      by_cases hthird : third = '*'
      · simp [isDoc, hthird]
      · simp [isDoc, hthird, Ne.symm hthird]
    | third :: fourth :: body =>
      by_cases hthird : third = '*'
      · -- a slash in the fourth place ends the comment that starts like documentation
        by_cases hfourth : fourth = '/'
        · simp [isDoc, hfourth]
        · simp [isDoc, hthird, hfourth, Ne.symm hfourth]
      · simp [isDoc, hthird, Ne.symm hthird]

end Comment

-- ---------------------------------------------------------------------------
-- Comments at the cursor
-- ---------------------------------------------------------------------------

namespace Lexer

variable {l : Lexer} {trailing : Bool} {comment rest : List Char}

/-- The trivia at the cursor is the piece that starts there, and the trivia behind it. -/
theorem takeGap_of_piece {p : Piece}
    (h : GapStart.ofText trailing l.before.isEmpty l.rest = .piece p) :
    l.takeGap trailing = (((l.advance p.text.length).takeGap trailing).1.map (p :: ·),
      ((l.advance p.text.length).takeGap trailing).2) := by
  obtain ⟨hne, hstarts⟩ := GapStart.ofText_eq_piece h
  -- behind the piece the lexer is no longer at the start of the source
  have hempty : (l.advance p.text.length).before.isEmpty = false := by
    rw [advance_toCursor, Cursor.advance_before, ← List.prefix_iff_eq_take.mp hstarts]
    simp [hne]
  set gap := Gap.ofText trailing false (l.rest.drop p.text.length) with hgap
  have hwhole : Gap.ofText trailing l.before.isEmpty l.rest = ⟨p :: gap.pieces, gap.openComment⟩ :=
    Gap.ofText_of_piece h
  have hbehind : Gap.ofText trailing (l.advance p.text.length).before.isEmpty
      (l.advance p.text.length).rest = gap := by
    rw [hempty]
    rfl
  have hlength : (⟨p :: gap.pieces, gap.openComment⟩ : Gap).length = p.text.length + gap.length := by
    rw [Gap.length, Trivia.text_cons, List.length_append]
    rfl
  have hpieces : Trivia.ofList (p :: gap.pieces) = p :: Trivia.ofList gap.pieces := by
    have hsame := Trivia.ofList_pieces trailing l.before.isEmpty l.rest
    rw [hwhole] at hsame
    rw [hgap, Trivia.ofList_pieces]
    exact hsame
  unfold takeGap
  simp only [hwhole, hbehind, hlength, hpieces]
  rw [← show (l.advance p.text.length).advance gap.length = l.advance (p.text.length + gap.length) from
    congrArg (fun c => { l with toCursor := c }) (l.toCursor.advance_advance ..)]
  split <;> rfl

/-- The comment is what the lexer takes first: no other one starts there, it is stored with its text, and
reading goes on directly behind it. -/
structure TakesBlock (l : Lexer) (trailing : Bool) (comment : List Char) : Prop where
  unique : ∀ other, Comment.IsBlock other → other <+: l.rest → other = comment
  piece : GapStart.ofText trailing l.before.isEmpty l.rest =
    .piece (.blockComment (decide (Comment.IsDocBlock comment)) comment)
  takeGap_eq : l.takeGap trailing = (((l.advance comment.length).takeGap trailing).1.map
      (.blockComment (decide (Comment.IsDocBlock comment)) comment :: ·),
    ((l.advance comment.length).takeGap trailing).2)

theorem takesBlock_of_starts (h : Comment.IsBlock comment) (hstarts : comment <+: l.rest) :
    l.TakesBlock trailing comment := by
  have hpiece : GapStart.ofText trailing l.before.isEmpty l.rest =
      .piece (.blockComment (decide (Comment.IsDocBlock comment)) comment) := by
    obtain ⟨more, hmore⟩ := hstarts
    have hlength := Comment.blockLength?_of_isBlock h more
    have hdoc := Comment.isDoc_of_isBlock h more
    have htake : (comment ++ more).take comment.length = comment := List.take_left
    obtain ⟨tail, htail⟩ : ∃ tail, comment ++ more = '/' :: '*' :: tail := by
      cases h with
      | marked => exact ⟨_, rfl⟩
    rw [← hmore]
    rw [htail] at hlength hdoc htake ⊢
    replace hlength : (Comment.closing? 0 tail).map (· + 2) = some comment.length := hlength
    rw [GapStart.ofText_of_block, hlength]
    show GapStart.piece (.blockComment _ _) = _
    rw [hdoc, htake]
  exact ⟨fun other hother hstarts' => hother.eq_of_starts h hstarts' hstarts, hpiece,
    takeGap_of_piece hpiece⟩

/-- Where no comment stands behind its marker, the marker starts a comment that never ends. -/
theorem openComment_of_unclosed (hrest : l.rest = '/' :: '*' :: rest)
    (hnone : ¬ ∃ comment, Comment.IsBlock comment ∧ comment <+: l.rest) :
    GapStart.ofText trailing l.before.isEmpty l.rest = .openComment := by
  rw [hrest] at hnone ⊢
  rw [GapStart.ofText_of_block]
  cases hlength : (Comment.closing? 0 rest).map (· + 2) with
  | none => rfl
  | some n =>
    exact absurd ⟨_, Comment.isBlock_of_blockLength? hlength, List.take_prefix ..⟩ hnone

theorem takeGap_of_openComment
    (h : GapStart.ofText trailing l.before.isEmpty l.rest = .openComment) :
    l.takeGap trailing =
      (.error (.openBlockComment ⟨l.pos, l.pos.after (l.rest.take 2)⟩), l.advance l.rest.length) := by
  have hgap := Gap.ofText_of_openComment h
  have hlength : l.advance (Gap.length ⟨[], true⟩) = l :=
    congrArg (fun c => { l with toCursor := c }) l.toCursor.advance_zero
  unfold takeGap
  simp only [hgap, hlength, if_true]

end Lexer

/-- **Block comments nest.** Where a marker opens a block comment, the search for its end succeeds exactly
if the text starts with a comment of the grammar. There is only one such comment; it is what is taken,
and it is documentation by its first characters. If there is none, all that is left is taken, and the
failure names the two characters of the outermost marker. -/
theorem block_comments_nest {l : Lexer} {rest : List Char} (hrest : l.rest = '/' :: '*' :: rest)
    (trailing : Bool) :
    ((∃ p, GapStart.ofText trailing l.before.isEmpty l.rest = .piece p) ↔
      ∃ comment, Comment.IsBlock comment ∧ comment <+: l.rest) ∧
    (∀ comment, Comment.IsBlock comment → comment <+: l.rest → l.TakesBlock trailing comment) ∧
    ((¬ ∃ comment, Comment.IsBlock comment ∧ comment <+: l.rest) →
      l.takeGap trailing =
        (.error (.openBlockComment ⟨l.pos, l.pos.after ['/', '*']⟩), l.advance l.rest.length)) := by
  refine ⟨⟨fun ⟨p, hp⟩ => ?_, fun ⟨comment, h, hstarts⟩ => ?_⟩, fun comment h hstarts => ?_,
    fun hnone => ?_⟩
  · by_contra hnone
    rw [Lexer.openComment_of_unclosed hrest hnone] at hp
    cases hp
  · exact ⟨_, (Lexer.takesBlock_of_starts h hstarts).piece⟩
  · exact Lexer.takesBlock_of_starts h hstarts
  · have hmarker : l.rest.take 2 = ['/', '*'] := by rw [hrest]; rfl
    rw [← hmarker]
    exact Lexer.takeGap_of_openComment (Lexer.openComment_of_unclosed hrest hnone)

/-- A slash directly behind a marker is no part of another one where the marker has taken its asterisk.
The first text holds a comment in a comment, and the second leaves the outer one open. -/
theorem block_comments_nest_overlapping :
    (Lexer.ofText "/*/**/*/a".toList).TakesBlock false "/*/**/*/".toList ∧
      (Lexer.ofText "/*/*/".toList).takeGap false =
        (.error (.openBlockComment ⟨.origin, ⟨0, 2, 2⟩⟩), (Lexer.ofText "/*/*/".toList).advance 5) := by
  refine ⟨(block_comments_nest (l := Lexer.ofText "/*/**/*/a".toList) rfl false).2.1 _ ?_ ?_,
    (block_comments_nest (l := Lexer.ofText "/*/*/".toList) rfl false).2.2 ?_⟩
  · exact .marked (.comment (.marked .nil) .nil)
  · exact ⟨['a'], rfl⟩
  · rw [← (block_comments_nest (l := Lexer.ofText "/*/*/".toList) rfl false).1]
    rintro ⟨p, hp⟩
    have hopen : GapStart.ofText false true "/*/*/".toList = .openComment := by decide +kernel
    cases hopen.symm.trans hp

end SwiftColoring
