import SwiftColoring.Proofs.Coverage

/-!
# What is drawn of tokens

Among the stretches that are drawn of a source, those of tokens are told from those of trivia by their
category. They are drawn of the tokens in order, each behind the kind of the token before it.

* `Category.isTrivia_ofPiece?`, `Category.isTrivia_ofKind?` — trivia and tokens share no category.
* `ofTokens_drawTokensFrom` — without the trivia, each token is drawn for itself.
* `highlight_of_tree`, `exists_tree_of_highlight` — a source is drawn if it makes a tree.
-/

namespace SwiftColoring

-- ---------------------------------------------------------------------------
-- Categories of trivia
-- ---------------------------------------------------------------------------

/-- What trivia is drawn as. -/
def Category.isTrivia : Category → Bool
  | .newline | .unknown | .lineComment | .blockComment => true
  | _ => false

/-- Pieces of trivia have categories of trivia. -/
theorem Category.isTrivia_ofPiece? (p : Piece) : ∀ c ∈ ofPiece? p, c.isTrivia = true := by
  cases p with
  | run unit count => cases unit <;> simp [ofPiece?, RunUnit.isBreak, isTrivia]
  | lineComment | blockComment | garbage => simp [ofPiece?, isTrivia]

/-- Tokens have none. -/
theorem Category.isTrivia_ofKind? (kind : Kind) : ∀ c ∈ ofKind? kind, c.isTrivia = false := by
  cases kind with
  | keyword k => cases k <;> simp [ofKind?, isTrivia]
  | _ => simp [ofKind?, isTrivia]

/-- What an identifier may turn out to name is no trivia. -/
theorem Category.isTrivia_named? (previous : Kind) (capital : Bool) :
    ∀ c ∈ named? previous capital, c.isTrivia = false := by
  intro c hc
  unfold named? at hc
  cases capital
  all_goals
    split at hc
    all_goals cases hc <;> rfl

-- ---------------------------------------------------------------------------
-- Stretches of tokens
-- ---------------------------------------------------------------------------

/-- The stretches that are drawn of tokens. -/
def ofTokens (ds : List Drawn) : List Drawn := ds.filter fun d => !d.category.isTrivia

theorem ofTokens_append (ds es : List Drawn) : ofTokens (ds ++ es) = ofTokens ds ++ ofTokens es :=
  List.filter_append ..

/-- Nothing that is drawn of trivia is drawn of a token. -/
theorem ofTokens_trivia (trivia : Trivia) (start : Nat) : ofTokens (trivia.draw start) = [] := by
  induction trivia generalizing start with
  | nil => rfl
  | cons p trivia ih =>
    rw [Trivia.draw, ofTokens_append, ih, List.append_nil]
    have htrivia := Category.isTrivia_ofPiece? p
    unfold Piece.draw?
    cases hcategory : Category.ofPiece? p with
    | none => rfl
    | some c =>
      rw [ofTokens, Option.map_some, Option.toList_some, List.filter_singleton, htrivia c hcategory]
      rfl

/-- The text of a token is not drawn as trivia. -/
theorem Token.isTrivia_drawText? (t : Token) (previous : Option Kind) :
    ∀ d ∈ t.drawText? previous, d.category.isTrivia = false := by
  intro d hd
  obtain ⟨candidate, hcandidate, rfl⟩ := Option.map_eq_some_iff.mp hd
  unfold candidate? at hcandidate
  split at hcandidate
  · cases hcandidate
  obtain ⟨category, hcategory, rfl⟩ := Option.map_eq_some_iff.mp hcandidate
  unfold Drawn.refine Drawn.refinement?
  simp only
  split
  · cases previous with
    | none => exact Category.isTrivia_ofKind? t.kind category hcategory
    | some previous =>
      rw [Option.bind_some]
      cases hnamed : Category.named? previous (startsWithCapital t.text) with
      | none => exact Category.isTrivia_ofKind? t.kind category hcategory
      | some named => exact Category.isTrivia_named? _ _ named hnamed
  · exact Category.isTrivia_ofKind? t.kind category hcategory

/-- Of a token and its trivia, its own text is drawn of a token. -/
theorem ofTokens_draw (t : Token) (previous : Option Kind) :
    ofTokens (t.draw previous) = (t.drawText? previous).toList := by
  rw [Token.draw, ofTokens_append, ofTokens_append, ofTokens_trivia, ofTokens_trivia, List.nil_append,
    List.append_nil]
  cases hdrawn : t.drawText? previous with
  | none => rfl
  | some d =>
    rw [ofTokens, Option.toList_some, List.filter_singleton, t.isTrivia_drawText? previous d hdrawn]
    rfl

/-- Tokens in a row, each with the kind of the token before it; `previous` stands before the first. -/
def behindKinds (previous : Option Kind) (ts : List Token) : List (Option Kind × Token) :=
  (previous :: ts.map fun t => some t.kind).zip ts

theorem behindKinds_cons (previous : Option Kind) (t : Token) (ts : List Token) :
    behindKinds previous (t :: ts) = (previous, t) :: behindKinds (some t.kind) ts := rfl

/-- A token stands behind the kind of the last one before it. -/
theorem mem_behindKinds (previous : Option Kind) (before : List Token) (t : Token)
    (behind : List Token) :
    ((before.getLast?.map Token.kind).or previous, t) ∈
      behindKinds previous (before ++ t :: behind) := by
  induction before generalizing previous with
  | nil => exact List.mem_cons_self ..
  | cons u before ih =>
    have hlast : (((u :: before).getLast?.map Token.kind).or previous) =
        (before.getLast?.map Token.kind).or (some u.kind) := by
      rw [List.getLast?_cons]
      cases before.getLast? <;> rfl
    rw [hlast, List.cons_append, behindKinds_cons]
    exact List.mem_cons_of_mem _ (ih (some u.kind))

/-- Without the trivia, each token is drawn for itself, behind the kind of the one before it. -/
theorem ofTokens_drawTokensFrom (previous : Option Kind) (ts : List Token) :
    ofTokens (drawTokensFrom previous ts) =
      (behindKinds previous ts).filterMap fun place => place.2.drawText? place.1 := by
  induction ts generalizing previous with
  | nil => rfl
  | cons t ts ih =>
    rw [drawTokensFrom, ofTokens_append, ofTokens_draw, ih, behindKinds_cons, List.filterMap_cons]
    cases t.drawText? previous <;> rfl

-- ---------------------------------------------------------------------------
-- Sources
-- ---------------------------------------------------------------------------

/-- A source that makes a tree is drawn from its tokens. -/
theorem highlight_of_tree {source : List Char} {ts : List Token} {tree : SourceTree}
    (h : tokens source = .ok ts) (htree : SourceTree.ofText? source = .ok tree) :
    highlight source.utf8Encode = .ok (drawTokens ts) := by
  obtain rfl := Except.ok.inj (h.symm.trans (SourceTree.balanced_of_ofText? htree).2)
  rw [highlight, highlightWith_utf8Encode, treeTokens, htree, ← tree.walk_eq_flatten]
  rfl

/-- Only a source that makes a tree is drawn. -/
theorem exists_tree_of_highlight {source : List Char} {out : List Drawn}
    (h : highlight source.utf8Encode = .ok out) : ∃ tree, SourceTree.ofText? source = .ok tree := by
  rw [highlight, highlightWith_utf8Encode, treeTokens] at h
  cases htree : SourceTree.ofText? source with
  | error failure =>
    rw [htree] at h
    cases h
  | ok tree => exact ⟨tree, rfl⟩

/-- A token of a source is drawn unless its text is empty. -/
theorem isEmpty_range_of_tokens {source : List Char} {ts : List Token} (h : tokens source = .ok ts) :
    ∀ t ∈ ts, t.range.isEmpty = t.text.isEmpty := by
  intro t ht
  obtain ⟨first, rest, rfl⟩ := List.append_of_mem ht
  have hstands := (StandInTurn.append_iff.mp (standInTurn_of_tokens h).1).2.1
  rw [hstands.range_eq, Bool.eq_iff_iff, isEmpty_ofText, List.isEmpty_iff]

end SwiftColoring
