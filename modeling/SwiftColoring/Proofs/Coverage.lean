import SwiftColoring.Proofs.Balance
import SwiftColoring.Proofs.Lossless

/-!
# What is drawn of a source

A source falls into parts: the texts of its tokens, and the pieces of trivia between them. Most
parts are drawn as a stretch of their own; a few are passed over. The places of stretches are
computed in steps, from the span of a token, the size of its trivia and the sizes of the pieces
before a piece. This module shows that they come out as if the parts were laid end to end.

* `Lays` — stretches drawn of parts that lie end to end.
* `lays_drawTokens` — drawing the tokens of a source lays out their parts from its first byte on.
* `Lays.drawn_iff` — a byte is drawn exactly when the part that it belongs to is not dropped.
* `drawing_covers_source` — the whole statement.
-/

namespace SwiftColoring

-- ---------------------------------------------------------------------------
-- Parts
-- ---------------------------------------------------------------------------

inductive Part where
  | piece (p : Piece)
  | lexeme (kind : Kind) (text : List Char)

namespace Part

/-- The characters of a part. -/
def text : Part → List Char
  | .piece p => p.text
  | .lexeme _ text => text

/-- Parts that are never drawn: backticks, garbage, and tokens of five kinds. -/
def isDropped : Part → Bool
  | .piece (.run .backtick _) | .piece (.garbage _) => true
  | .lexeme .prefixOperator _ | .lexeme .postfixOperator _ | .lexeme .prefixAmpersand _
  | .lexeme .exclamation _ | .lexeme .pound _ => true
  | _ => false

/-- The characters of parts in a row. -/
def textOf (parts : List Part) : List Char := parts.flatMap text

@[simp] theorem textOf_nil : textOf [] = [] := rfl

@[simp] theorem textOf_cons (p : Part) (parts : List Part) :
    textOf (p :: parts) = p.text ++ textOf parts := List.flatMap_cons

@[simp] theorem textOf_append (parts others : List Part) :
    textOf (parts ++ others) = textOf parts ++ textOf others := List.flatMap_append

/-- Trivia taken apart holds the same characters. -/
theorem textOf_pieces (trivia : Trivia) : textOf (trivia.map piece) = trivia.text := by
  rw [textOf, List.flatMap_map]
  rfl

end Part

/-- The parts of a token: the trivia before it, its text, and the trivia behind it. -/
def Token.parts (t : Token) : List Part :=
  t.leading.map .piece ++ .lexeme t.kind t.text :: t.trailing.map .piece

/-- The parts of tokens in a row. -/
def partsOf (ts : List Token) : List Part := ts.flatMap Token.parts

/-- A token taken apart holds the same characters. -/
theorem Token.textOf_parts (t : Token) : Part.textOf t.parts = t.fullText := by
  rw [parts, Part.textOf_append, Part.textOf_cons, Part.textOf_pieces, Part.textOf_pieces, fullText,
    List.append_assoc]
  rfl

/-- So do tokens in a row. -/
theorem textOf_partsOf (ts : List Token) : Part.textOf (partsOf ts) = ts.flatMap Token.fullText := by
  induction ts with
  | nil => rfl
  | cons t ts ih =>
    rw [partsOf, List.flatMap_cons, Part.textOf_append, t.textOf_parts, List.flatMap_cons, ← ih]
    rfl

/-- The parts of tokens in a row, about the lexeme of one of them. -/
theorem partsOf_split (before : List Token) (t : Token) (behind : List Token) :
    partsOf (before ++ t :: behind) = partsOf before ++ t.leading.map .piece ++
      .lexeme t.kind t.text :: (t.trailing.map .piece ++ partsOf behind) := by
  simp only [partsOf, List.flatMap_append, List.flatMap_cons, Token.parts, List.append_assoc,
    List.cons_append]

-- ---------------------------------------------------------------------------
-- Bytes
-- ---------------------------------------------------------------------------

def ByteRange.Has (r : ByteRange) (i : Nat) : Prop := r.start ≤ i ∧ i < r.stop

/-- The bytes of a text that starts at this one. -/
def ByteRange.ofText (start : Nat) (text : List Char) : ByteRange := ⟨start, start + byteLength text⟩

/-- The byte belongs to a part that is dropped, of parts that lie end to end from `start` on. -/
def InDropped (start : Nat) (parts : List Part) (i : Nat) : Prop :=
  ∃ before p behind, parts = before ++ p :: behind ∧ p.isDropped = true ∧
    (ByteRange.ofText (start + byteLength (Part.textOf before)) p.text).Has i

theorem byteLength_pos {text : List Char} (h : text ≠ []) : 0 < byteLength text := by
  cases text with
  | nil => exact absurd rfl h
  | cons c text =>
    have hc : 0 < c.utf8Size := c.utf8Size_pos
    rw [byteLength_cons]
    omega

/-- A byte of a dropped part does not lie before the first part. -/
theorem InDropped.start_le {start i : Nat} {parts : List Part} (h : InDropped start parts i) :
    start ≤ i := by
  obtain ⟨before, p, behind, -, -, hlo, -⟩ := h
  exact Nat.le_trans (Nat.le_add_right ..) hlo

/-- A byte is in a dropped part when it is in the first one and this is dropped, or when it is in a
dropped one of the others. -/
theorem inDropped_cons {start i : Nat} {p : Part} {parts : List Part} :
    InDropped start (p :: parts) i ↔
      (p.isDropped = true ∧ (ByteRange.ofText start p.text).Has i) ∨
        InDropped (start + byteLength p.text) parts i := by
  constructor
  · rintro ⟨before, q, behind, hparts, hdropped, hhas⟩
    -- either nothing stands before the dropped part, or the first part does
    cases before with
    | nil =>
      obtain ⟨rfl, -⟩ := List.cons.inj hparts
      exact .inl ⟨hdropped, hhas⟩
    | cons first before =>
      obtain ⟨rfl, htail⟩ := List.cons.inj hparts
      rw [Part.textOf_cons, byteLength_append, ← Nat.add_assoc] at hhas
      exact .inr ⟨before, q, behind, htail, hdropped, hhas⟩
  · rintro (⟨hdropped, hhas⟩ | ⟨before, q, behind, rfl, hdropped, hhas⟩)
    · exact ⟨[], p, parts, rfl, hdropped, hhas⟩
    · refine ⟨p :: before, q, behind, rfl, hdropped, ?_⟩
      rw [Part.textOf_cons, byteLength_append, ← Nat.add_assoc]
      exact hhas

/-- Whether a byte of the first part is dropped is up to that part. -/
theorem inDropped_cons_of_has {start i : Nat} {p : Part} {parts : List Part}
    (h : (ByteRange.ofText start p.text).Has i) :
    InDropped start (p :: parts) i ↔ p.isDropped = true := by
  rw [inDropped_cons]
  constructor
  · rintro (⟨hdropped, -⟩ | hlater)
    · exact hdropped
    · exact absurd h.2 (Nat.not_lt.mpr hlater.start_le)
  · intro hdropped
    exact .inl ⟨hdropped, h⟩

/-- Whether a later byte is dropped is up to the parts behind it. -/
theorem inDropped_cons_of_le {start i : Nat} {p : Part} {parts : List Part}
    (h : start + byteLength p.text ≤ i) :
    InDropped start (p :: parts) i ↔ InDropped (start + byteLength p.text) parts i := by
  rw [inDropped_cons]
  constructor
  · rintro (⟨-, hhas⟩ | hlater)
    · exact absurd hhas.2 (Nat.not_lt.mpr h)
    · exact hlater
  · exact .inr

-- ---------------------------------------------------------------------------
-- Parts laid out
-- ---------------------------------------------------------------------------

/-- The stretches are drawn of parts that lie end to end from `start` on. Dropped parts and parts
without text are passed over, every other part is drawn. -/
inductive Lays : Nat → List Part → List Drawn → Prop where
  | nil {start : Nat} : Lays start [] []
  | skip {start : Nat} {p : Part} {parts : List Part} {out : List Drawn}
      (hskip : p.isDropped = true ∨ p.text = [])
      (hrest : Lays (start + byteLength p.text) parts out) : Lays start (p :: parts) out
  | draw {start : Nat} {p : Part} {parts : List Part} {d : Drawn} {out : List Drawn}
      (hkept : p.isDropped = false) (hne : p.text ≠ []) (htext : d.text = p.text)
      (hrange : d.range = .ofText start p.text)
      (hrest : Lays (start + byteLength p.text) parts out) : Lays start (p :: parts) (d :: out)

namespace Lays

variable {start : Nat} {parts others : List Part} {out more : List Drawn}

/-- Parts laid out one after the other are laid out together. -/
theorem append (h : Lays start parts out)
    (hmore : Lays (start + byteLength (Part.textOf parts)) others more) :
    Lays start (parts ++ others) (out ++ more) := by
  induction h with
  | nil => exact hmore
  | skip hskip _ ih =>
    -- a part passed over counts for the place of what comes behind it like any other
    rw [Part.textOf_cons, byteLength_append, ← Nat.add_assoc] at hmore
    exact .skip hskip (ih hmore)
  | draw hkept hne htext hrange _ ih =>
    rw [Part.textOf_cons, byteLength_append, ← Nat.add_assoc] at hmore
    exact .draw hkept hne htext hrange (ih hmore)

private theorem has_of_le {p : Part} {i : Nat}
    (hi : (ByteRange.ofText start (Part.textOf (p :: parts))).Has i)
    (hlater : start + byteLength p.text ≤ i) :
    (ByteRange.ofText (start + byteLength p.text) (Part.textOf parts)).Has i := by
  refine ⟨hlater, ?_⟩
  have hstop := hi.2
  rw [Part.textOf_cons] at hstop
  simp only [ByteRange.ofText, byteLength_append] at hstop ⊢
  omega

/-- No stretch starts before the first part. -/
theorem start_le (h : Lays start parts out) : ∀ d ∈ out, start ≤ d.range.start := by
  induction h with
  | nil => simp
  | skip _ _ ih =>
    intro d hd
    exact Nat.le_trans (Nat.le_add_right ..) (ih d hd)
  | draw _ _ _ hrange _ ih =>
    intro e he
    rcases List.mem_cons.mp he with rfl | he
    · rw [hrange]
      exact Nat.le_refl _
    · exact Nat.le_trans (Nat.le_add_right ..) (ih e he)

/-- Stretches stand in order, and no byte is drawn twice. -/
theorem isChain (h : Lays start parts out) :
    out.IsChain fun d e => d.range.stop ≤ e.range.start := by
  induction h with
  | nil => exact List.isChain_nil
  | skip _ _ ih => exact ih
  | draw _ _ _ hrange hrest ih =>
    -- everything behind is laid out from where this stretch stops
    refine ih.cons fun e he => ?_
    rw [hrange]
    exact hrest.start_le e (List.mem_of_mem_head? he)

/-- A byte is drawn exactly when the part that it belongs to is not dropped. -/
theorem drawn_iff (h : Lays start parts out) {i : Nat}
    (hi : (ByteRange.ofText start (Part.textOf parts)).Has i) :
    (∃ d ∈ out, d.range.Has i) ↔ ¬ InDropped start parts i := by
  induction h with
  | nil =>
    -- no part, no byte
    obtain ⟨hlo, hhi⟩ := hi
    exact absurd hhi (Nat.not_lt.mpr hlo)
  | @skip start p parts out hskip hrest ih =>
    by_cases hlater : start + byteLength p.text ≤ i
    · rw [inDropped_cons_of_le hlater]
      exact ih (has_of_le hi hlater)
    · -- the byte is passed over, and only a dropped part has bytes to pass over
      have hfirst : (ByteRange.ofText start p.text).Has i := ⟨hi.1, Nat.lt_of_not_le hlater⟩
      have hdropped : p.isDropped = true := by
        refine hskip.resolve_right fun hempty => ?_
        rw [hempty] at hlater
        exact hlater hi.1
      rw [inDropped_cons_of_has hfirst]
      constructor
      · rintro ⟨d, hd, hhas⟩
        exact absurd (Nat.le_trans (hrest.start_le d hd) hhas.1) hlater
      · intro hkept
        exact absurd hdropped hkept
  | @draw start p parts d out hkept hne htext hrange hrest ih =>
    by_cases hlater : start + byteLength p.text ≤ i
    · rw [inDropped_cons_of_le hlater, ← ih (has_of_le hi hlater)]
      constructor
      · rintro ⟨e, he, hhas⟩
        rcases List.mem_cons.mp he with rfl | he
        · rw [hrange] at hhas
          exact absurd hhas.2 (Nat.not_lt.mpr hlater)
        · exact ⟨e, he, hhas⟩
      · rintro ⟨e, he, hhas⟩
        exact ⟨e, List.mem_cons_of_mem _ he, hhas⟩
    · -- the byte is in the stretch drawn of the first part
      have hfirst : (ByteRange.ofText start p.text).Has i := ⟨hi.1, Nat.lt_of_not_le hlater⟩
      rw [inDropped_cons_of_has hfirst, hkept]
      constructor
      · intro _ hdropped
        cases hdropped
      · intro _
        exact ⟨d, List.mem_cons_self .., by rw [hrange]; exact hfirst⟩

end Lays

/-- The stretch is a text in its place in the source, on whole characters and not empty. -/
structure Drawn.IsFrom (source : List Char) (d : Drawn) : Prop where
  start_lt : d.range.start < d.range.stop
  text_eq : ∃ before behind, source = before ++ d.text ++ behind ∧
    d.range = .ofText (byteLength before) d.text

/-- Stretches laid out over a part of a source are stretches of that source. -/
theorem Lays.isFrom {start : Nat} {parts : List Part} {out : List Drawn} (h : Lays start parts out)
    (before behind : List Char) (hstart : start = byteLength before) :
    ∀ d ∈ out, d.IsFrom (before ++ Part.textOf parts ++ behind) := by
  induction h generalizing before with
  | nil => simp
  | @skip start p parts out hskip hrest ih =>
    intro d hd
    have hnext : start + byteLength p.text = byteLength (before ++ p.text) := by
      rw [hstart, byteLength_append]
    have hfrom := ih (before ++ p.text) hnext d hd
    rw [List.append_assoc before] at hfrom
    exact hfrom
  | @draw start p parts d out hkept hne htext hrange hrest ih =>
    have hnext : start + byteLength p.text = byteLength (before ++ p.text) := by
      rw [hstart, byteLength_append]
    intro e he
    rcases List.mem_cons.mp he with rfl | he
    · constructor
      case start_lt =>
        rw [hrange]
        exact Nat.lt_add_of_pos_right (byteLength_pos hne)
      case text_eq =>
        refine ⟨before, Part.textOf parts ++ behind, ?_, by rw [hrange, htext, hstart]⟩
        rw [htext, Part.textOf_cons]
        simp only [List.append_assoc]
    · have hfrom := ih (before ++ p.text) hnext e he
      rw [List.append_assoc before] at hfrom
      exact hfrom

/-- The bytes of a stretch, cut out of those of the source, are those of its text. -/
theorem Drawn.IsFrom.extract_eq {source : List Char} {d : Drawn} (h : d.IsFrom source) :
    source.utf8Encode.extract d.range.start d.range.stop = d.text.utf8Encode := by
  obtain ⟨before, behind, rfl, hrange⟩ := h.text_eq
  rw [hrange]
  exact extract_utf8Encode before d.text behind

/-- A stretch of a source ends within it. -/
theorem Drawn.IsFrom.stop_le {source : List Char} {d : Drawn} (h : d.IsFrom source) :
    d.range.stop ≤ source.utf8Encode.size := by
  obtain ⟨before, behind, rfl, hrange⟩ := h.text_eq
  rw [hrange, size_utf8Encode, byteLength_append, byteLength_append]
  exact Nat.le_add_right ..

-- ---------------------------------------------------------------------------
-- Drawing
-- ---------------------------------------------------------------------------

-- the two tables of categories leave out just the parts that are dropped, and the kinds of tokens that
-- have no text or are never handed out

/-- Backticks and garbage are the pieces that have no category. -/
theorem isNone_ofPiece? (p : Piece) : (Category.ofPiece? p).isNone = (Part.piece p).isDropped := by
  cases p with
  | run unit count => cases unit <;> rfl
  | lineComment | blockComment | garbage => rfl

/-- Of tokens, those whose texts are dropped have no category, nor has one that is unknown or ends the
source. -/
theorem isNone_ofKind? (kind : Kind) (text : List Char) :
    (Category.ofKind? kind).isNone =
      ((Part.lexeme kind text).isDropped || kind == .unknown || kind == .eof) := by
  cases kind with
  | keyword k => cases k <;> rfl
  | _ => rfl

theorem isEmpty_ofText (start : Nat) (text : List Char) :
    (ByteRange.ofText start text).isEmpty = true ↔ text = [] := by
  rw [ByteRange.isEmpty, beq_iff_eq]
  constructor
  · intro h
    cases text with
    | nil => rfl
    | cons c text =>
      have hpos := byteLength_pos (List.cons_ne_nil c text)
      simp only [ByteRange.ofText] at h
      omega
  · rintro rfl
    rfl

/-- A piece is drawn in its place, or dropped. -/
theorem Piece.lays_draw? {p : Piece} (hne : p.text ≠ []) (start : Nat) :
    Lays start [.piece p] (p.draw? ⟨start, start + p.byteSize⟩).toList := by
  have hdropped := isNone_ofPiece? p
  unfold Piece.draw?
  cases hcategory : Category.ofPiece? p with
  | none =>
    rw [hcategory] at hdropped
    exact .skip (.inl hdropped.symm) .nil
  | some category =>
    rw [hcategory] at hdropped
    exact .draw hdropped.symm hne rfl (by rw [p.byteSize_eq]; rfl) .nil

/-- Trivia is drawn piece by piece, each behind the one before. -/
theorem Trivia.lays_draw {trivia : Trivia} (hne : ∀ p ∈ trivia, p.text ≠ []) (start : Nat) :
    Lays start (trivia.map .piece) (trivia.draw start) := by
  induction trivia generalizing start with
  | nil => exact .nil
  | cons p trivia ih =>
    have hhead : Lays start [.piece p] (p.draw? ⟨start, start + p.byteSize⟩).toList :=
      p.lays_draw? (hne p (List.mem_cons_self ..)) start
    have htail := ih (fun q hq => hne q (List.mem_cons_of_mem _ hq)) (start + p.byteSize)
    refine hhead.append ?_
    have hsize : byteLength (Part.textOf [.piece p]) = p.byteSize := by
      rw [p.byteSize_eq, Part.textOf_cons, Part.textOf_nil, List.append_nil]
      rfl
    rw [hsize]
    exact htail

/-- What holds of every token of a source, and what drawing relies on. -/
structure Token.IsDrawable (t : Token) : Prop where
  leading_ne_nil : ∀ p ∈ t.leading, p.text ≠ []
  trailing_ne_nil : ∀ p ∈ t.trailing, p.text ≠ []
  kind_ne_unknown : t.kind ≠ .unknown
  text_of_eof : t.kind = .eof → t.text = []

/-- Every token that a call hands out can be laid out. -/
theorem Lexer.Cut.isDrawable {l behind here : Lexer} {t : Token} {x : Lexeme}
    (h : Cut l t behind here x) : t.IsDrawable :=
  ⟨h.leading.text_ne_nil, h.trailing.text_ne_nil, h.kind_ne_unknown, h.text_of_eof⟩

/-- The text of a token lies behind its leading trivia. -/
theorem Token.StandsBehind.range_eq {passed : List Char} {t : Token} (h : t.StandsBehind passed) :
    t.range = .ofText (byteLength passed + t.leading.byteSize) t.text := by
  rw [Token.range, h.start_offset, h.stop_offset]
  rfl

/-- The text of a token is drawn unless it is empty or dropped; what it turns out to name changes
its category alone. -/
theorem Token.lays_drawText? {passed : List Char} {t : Token} (hstands : t.StandsBehind passed)
    (ht : t.IsDrawable) (previous : Option Kind) :
    Lays (byteLength passed + t.leading.byteSize) [.lexeme t.kind t.text]
      (t.drawText? previous).toList := by
  have hdropped := isNone_ofKind? t.kind t.text
  unfold drawText? candidate? Kind.draw?
  rw [hstands.range_eq]
  by_cases hempty : t.text = []
  · -- a token without text is not drawn, whatever its kind
    rw [if_pos ((isEmpty_ofText ..).mpr hempty)]
    exact .skip (.inr hempty) .nil
  · rw [if_neg fun h => hempty ((isEmpty_ofText ..).mp h)]
    -- with text, the kinds that are not drawn come down to those that are dropped
    have hunknown : (t.kind == .unknown) = false := beq_eq_false_iff_ne.mpr ht.kind_ne_unknown
    have heof : (t.kind == .eof) = false :=
      beq_eq_false_iff_ne.mpr fun hkind => hempty (ht.text_of_eof hkind)
    rw [hunknown, heof, Bool.or_false, Bool.or_false] at hdropped
    cases hcategory : Category.ofKind? t.kind with
    | none =>
      rw [hcategory] at hdropped
      exact .skip (.inl hdropped.symm) .nil
    | some category =>
      rw [hcategory] at hdropped
      exact .draw hdropped.symm hempty rfl rfl .nil

/-- A token is drawn where it stands, with its trivia around it. -/
theorem Token.lays_draw {passed : List Char} {t : Token} (hstands : t.StandsBehind passed)
    (ht : t.IsDrawable) (previous : Option Kind) :
    Lays (byteLength passed) t.parts (t.draw previous) := by
  have hleading : Lays (byteLength passed) (t.leading.map .piece) (t.leading.draw t.fullStart) := by
    rw [hstands.fullStart_eq]
    exact Trivia.lays_draw ht.leading_ne_nil _
  have htext := t.lays_drawText? hstands ht previous
  have htrailing : Lays t.range.stop (t.trailing.map .piece) (t.trailing.draw t.range.stop) :=
    Trivia.lays_draw ht.trailing_ne_nil _
  have hsize : byteLength (Part.textOf (t.leading.map .piece)) = t.leading.byteSize := by
    rw [Part.textOf_pieces, Trivia.byteSize_eq]
  -- the trailing trivia is placed by the end of the span, which is where its turn comes
  have hstop : byteLength passed +
      byteLength (Part.textOf (t.leading.map .piece ++ [.lexeme t.kind t.text])) = t.range.stop := by
    rw [Part.textOf_append, byteLength_append, hsize, hstands.range_eq, Part.textOf_cons,
      Part.textOf_nil, List.append_nil, ← Nat.add_assoc]
    rfl
  rw [← hsize] at htext
  rw [← hstop] at htrailing
  have hall := (hleading.append htext).append htrailing
  rw [List.append_assoc] at hall
  rw [hstop] at hall
  exact hall

/-- Tokens that stand one behind the other are drawn one behind the other. -/
theorem lays_drawTokensFrom {passed : List Char} {ts : List Token} (hturn : StandInTurn passed ts)
    (hts : ∀ t ∈ ts, t.IsDrawable) (previous : Option Kind) :
    Lays (byteLength passed) (partsOf ts) (drawTokensFrom previous ts) := by
  induction ts generalizing passed previous with
  | nil => exact .nil
  | cons t ts ih =>
    have hhead := t.lays_draw hturn.1 (hts t (List.mem_cons_self ..)) previous
    have htail := ih hturn.2 (fun u hu => hts u (List.mem_cons_of_mem _ hu)) (some t.kind)
    rw [byteLength_append, ← t.textOf_parts] at htail
    exact hhead.append htail

/-- Drawing the tokens of a source lays out their parts from its first byte on. -/
theorem lays_drawTokens {source : List Char} {ts : List Token} (h : tokens source = .ok ts) :
    Lays 0 (partsOf ts) (drawTokens ts) := by
  -- places are those of the tokens in turn, and each token was cut off by a call
  refine lays_drawTokensFrom (standInTurn_of_tokens h).1 (fun t ht => ?_) none
  obtain ⟨l, behind, here, x, hcut⟩ := Lexer.exists_cut_of_mem_tokens h ht
  exact hcut.isDrawable

/-- What is drawn of a source is drawn of its tokens. -/
theorem exists_tokens_of_highlight {source : List Char} {out : List Drawn}
    (h : highlight source.utf8Encode = .ok out) :
    ∃ ts, tokens source = .ok ts ∧ out = drawTokens ts := by
  rw [highlight, highlightWith_utf8Encode] at h
  cases htree : SourceTree.ofText? source with
  | error failure =>
    rw [treeTokens, htree] at h
    cases h
  | ok tree =>
    rw [treeTokens, htree] at h
    obtain rfl := Except.ok.inj h
    refine ⟨tree.walk, ?_, rfl⟩
    rw [tree.walk_eq_flatten]
    exact (SourceTree.balanced_of_ofText? htree).2

/-- **What is drawn covers a source but for what is dropped.** Of bytes that encode a source, the
stretches drawn are not empty, hold the bytes between their ends, start and stop between
characters, and follow one another without overlap up to the end at most. The parts of the tokens
are the source; a byte is left out exactly when it belongs to a dropped part. Bytes that encode no
source are refused, and no stretch of them is blamed. -/
theorem drawing_covers_source (bytes : ByteArray) :
    (∀ source out, bytes = source.utf8Encode → highlight bytes = .ok out →
      (∀ d ∈ out, d.IsFrom source ∧ bytes.extract d.range.start d.range.stop = d.text.utf8Encode) ∧
      out.IsChain (fun d e => d.range.stop ≤ e.range.start) ∧
      (∀ d ∈ out.getLast?, d.range.stop ≤ bytes.size) ∧
      ∃ ts, tokens source = .ok ts ∧ Part.textOf (partsOf ts) = source ∧
        ∀ i < bytes.size, (¬ ∃ d ∈ out, d.range.Has i) ↔ InDropped 0 (partsOf ts) i) ∧
    ((∀ source : List Char, bytes ≠ source.utf8Encode) →
      ∃ failure, highlight bytes = .error failure ∧
        failure.diagnostic.fault = .parse ∧ failure.diagnostic.span = none) := by
  constructor
  · rintro source out rfl h
    obtain ⟨ts, hts, rfl⟩ := exists_tokens_of_highlight h
    have hlays := lays_drawTokens hts
    -- the parts are the whole source, so that places among them are places in it
    have hsource : Part.textOf (partsOf ts) = source := by
      rw [textOf_partsOf, (standInTurn_of_tokens hts).2]
    have hfrom : ∀ d ∈ drawTokens ts, d.IsFrom source := by
      have hall := hlays.isFrom [] [] rfl
      rw [hsource, List.nil_append, List.append_nil] at hall
      exact hall
    refine ⟨fun d hd => ⟨hfrom d hd, (hfrom d hd).extract_eq⟩, hlays.isChain, fun d hd => ?_, ts, hts,
      hsource, fun i hi => ?_⟩
    · exact (hfrom d (List.mem_of_mem_getLast? hd)).stop_le
    · have hhas : (ByteRange.ofText 0 (Part.textOf (partsOf ts))).Has i := by
        rw [size_utf8Encode] at hi
        rw [hsource]
        exact ⟨Nat.zero_le _, by rw [ByteRange.ofText, Nat.zero_add]; exact hi⟩
      rw [hlays.drawn_iff hhas, Classical.not_not]
  · intro hnot
    unfold highlight highlightWith sourceText
    cases hdecode : Utf8.decode bytes with
    | ok source => exact absurd (Utf8.decode_eq_ok_iff.mp hdecode) (hnot source)
    | error fault => exact ⟨.notText fault, rfl, rfl, rfl⟩

/-- The minus sign is passed over, the name behind it is drawn. -/
theorem drawing_covers_source_negation :
    ∃ out ts, highlight "-a".toList.utf8Encode = .ok out ∧ tokens "-a".toList = .ok ts ∧
      out.map Drawn.range = [⟨1, 2⟩] ∧ InDropped 0 (partsOf ts) 0 := by
  have hranges : ((treeTokens "-a".toList).map drawTokens).toOption.map (List.map Drawn.range) =
      some [⟨1, 2⟩] := by
    decide +kernel
  obtain ⟨out, hout, hranges⟩ := exists_ok_of_toOption_map hranges
  have hhighlight : highlight "-a".toList.utf8Encode = .ok out := by
    rw [highlight, highlightWith_utf8Encode, hout]
  obtain ⟨-, -, -, ts, hts, -, hdrawn⟩ := (drawing_covers_source _).1 _ out rfl hhighlight
  refine ⟨out, ts, hhighlight, hts, hranges, (hdrawn 0 (by decide)).mp ?_⟩
  rintro ⟨d, hd, hhas⟩
  have hrange : d.range ∈ out.map Drawn.range := List.mem_map_of_mem hd
  rw [hranges, List.mem_singleton] at hrange
  rw [hrange] at hhas
  exact absurd hhas.1 (by decide)

end SwiftColoring
