import Mathlib.Algebra.GroupWithZero.Nat
import SwiftColoring.Proofs.Coverage
import SwiftColoring.Proofs.Fitting
import SwiftColoring.Proofs.Pieces

/-!
# Merging is not seen

Trivia can be put together from any pieces, not only from those that a source is cut into: a run may
repeat nothing, and runs of one unit may follow one another. Added in turn, pieces that are one run are
merged, and that shows neither in the text nor in what is drawn. What is drawn is compared byte by byte,
since runs that are merged make one stretch, and a run that repeats nothing makes one without bytes. All
this is said of a machine, and holds as long as memory has room for the texts and words reach the places;
beyond that the machine has no answer.

* `Trivia.isChain_ofList` — trivia that was put together has no runs of one unit side by side.
* `Trivia.categories_ofList` — merging changes the category of no byte.
* `Trivia.categoryAt?_draw` — a byte is drawn in its category.
* `merging_is_not_seen` — the whole statement.
* `breaks_exceed_memory` — where the bounds are passed.
-/

namespace SwiftColoring

-- ---------------------------------------------------------------------------
-- Nothing is left to merge
-- ---------------------------------------------------------------------------

/-- Pieces are not merged iff they are no runs of one unit. -/
theorem Piece.merge?_eq_none_iff {p q : Piece} :
    p.merge? q = none ↔ ∀ unit m n, p = .run unit m → q ≠ .run unit n := by
  constructor
  · rintro h unit m n rfl rfl
    rw [merge?, if_pos rfl] at h
    cases h
  · intro h
    cases hmerge : p.merge? q with
    | none => rfl
    | some merged =>
      obtain ⟨unit, m, n, hp, hq, -⟩ := merge?_eq_some hmerge
      exact absurd hq (h unit m n hp)

/-- Where nothing is left to merge, nothing is when a piece is added. -/
theorem Trivia.isChain_push {t : Trivia} (h : t.IsChain fun p q => p.merge? q = none) (p : Piece) :
    (push t p).IsChain fun p q => p.merge? q = none := by
  rcases push_cases t p with ⟨hpush, hlast⟩ | ⟨init, unit, m, n, rfl, rfl, hpush⟩
  · rw [hpush, List.isChain_append]
    refine ⟨h, List.isChain_singleton _, fun q hq r hr => ?_⟩
    obtain rfl := Option.some.inj hr
    exact hlast q hq
  · rw [List.isChain_append] at h
    obtain ⟨hinit, -, hlast⟩ := h
    rw [hpush, List.isChain_append]
    refine ⟨hinit, List.isChain_singleton _, fun q hq r hr => ?_⟩
    obtain rfl := Option.some.inj hr
    -- what did not merge with the run before does not merge with the longer one
    have hapart := Piece.merge?_eq_none_iff.mp (hlast q hq (.run unit m) rfl)
    refine Piece.merge?_eq_none_iff.mpr fun other k l hrun hsame => ?_
    obtain ⟨rfl, -⟩ := Piece.run.inj hsame
    exact hapart unit k m hrun rfl

/-- When pieces are put together, nothing is left to merge. -/
theorem Trivia.isChain_ofList (pieces : List Piece) :
    (ofList pieces).IsChain fun p q => p.merge? q = none := by
  induction pieces using List.reverseRecOn with
  | nil => exact List.isChain_nil
  | append_singleton pieces p ih =>
    rw [ofList_concat]
    exact isChain_push ih p

-- ---------------------------------------------------------------------------
-- Sizes
-- ---------------------------------------------------------------------------

/-- The size of trivia is the sum of the sizes of its pieces. -/
theorem Trivia.byteSize_eq_sum (t : Trivia) : t.byteSize = (t.map Piece.byteSize).sum := by
  induction t with
  | nil => rfl
  | cons p t ih => rw [byteSize, List.map_cons, List.sum_cons, ih]

-- ---------------------------------------------------------------------------
-- The category of a byte
-- ---------------------------------------------------------------------------

/-- Of each byte of the piece, what it is drawn as. -/
def Piece.categories (p : Piece) : List (Option Category) :=
  List.replicate p.byteSize (Category.ofPiece? p)

/-- Of each byte of the trivia, what it is drawn as. -/
def Trivia.categories (t : Trivia) : List (Option Category) := t.flatMap Piece.categories

/-- The bytes of a run are those of its parts. -/
theorem Piece.categories_run_add (unit : RunUnit) (m n : Nat) :
    (run unit (m + n)).categories = (run unit m).categories ++ (run unit n).categories := by
  have hcategory : ∀ k, Category.ofPiece? (.run unit k) = Category.ofPiece? (.run unit 0) := fun _ => rfl
  rw [categories, categories, categories, hcategory (m + n), hcategory m, hcategory n,
    List.replicate_append_replicate, byteSize, byteSize, byteSize, Nat.mul_add]

/-- Merging changes the category of no byte. -/
theorem Trivia.categories_ofList (pieces : List Piece) :
    (ofList pieces).categories = categories pieces :=
  flatMap_ofList Piece.categories_run_add pieces

/-- The first bytes have the category of the first piece. -/
theorem Trivia.categories_cons_of_lt {p : Piece} {t : Trivia} {i : Nat} (hi : i < p.byteSize) :
    (categories (p :: t))[i]? = some (Category.ofPiece? p) := by
  have hlength : i < p.categories.length := by rwa [Piece.categories, List.length_replicate]
  rw [categories, List.flatMap_cons, List.getElem?_append_left hlength, Piece.categories,
    List.getElem?_replicate_of_lt hi]

/-- The others have those that they have behind it. -/
theorem Trivia.categories_cons_of_le {p : Piece} {t : Trivia} {i : Nat} (hi : p.byteSize ≤ i) :
    (categories (p :: t))[i]? = (categories t)[i - p.byteSize]? := by
  have hlength : p.categories.length = p.byteSize := List.length_replicate
  rw [categories, List.flatMap_cons, List.getElem?_append_right (by rwa [hlength]), hlength]
  rfl

/-- Each byte has the category of the piece that it belongs to. -/
theorem Trivia.exists_piece_of_lt {pieces : List Piece} {i : Nat} (hi : i < byteSize pieces) :
    ∃ before p behind, pieces = before ++ p :: behind ∧ byteSize before ≤ i ∧
      i < byteSize before + p.byteSize ∧ (categories pieces)[i]? = some (Category.ofPiece? p) := by
  induction pieces generalizing i with
  | nil => exact absurd hi (Nat.not_lt_zero i)
  | cons p pieces ih =>
    rcases Nat.lt_or_ge i p.byteSize with hfirst | hlater
    · exact ⟨[], p, pieces, rfl, Nat.zero_le i, by rwa [byteSize, Nat.zero_add],
        categories_cons_of_lt hfirst⟩
    · rw [byteSize] at hi
      have hrest : i - p.byteSize < byteSize pieces := by omega
      obtain ⟨before, q, behind, rfl, hlo, hhi, hcategory⟩ := ih hrest
      refine ⟨p :: before, q, behind, rfl, ?_, ?_, ?_⟩
      · rw [byteSize]
        omega
      · rw [byteSize]
        omega
      · rw [categories_cons_of_le hlater, hcategory]

-- ---------------------------------------------------------------------------
-- Trivia in its place
-- ---------------------------------------------------------------------------

/-- The stretch is cut out of a text whose first byte is at `start`, where its range says. -/
def Drawn.IsCutFrom (d : Drawn) (start : Nat) (text : List Char) : Prop :=
  ∃ before behind, text = before ++ d.text ++ behind ∧
    d.range = .ofText (start + byteLength before) d.text

theorem Drawn.IsCutFrom.start_le {d : Drawn} {start : Nat} {text : List Char}
    (h : d.IsCutFrom start text) : start ≤ d.range.start := by
  obtain ⟨before, behind, -, hrange⟩ := h
  rw [hrange]
  exact Nat.le_add_right ..

/-- The bytes of a stretch, cut out of those of the text, are those of the stretch's own text. -/
theorem Drawn.IsCutFrom.extract_eq {d : Drawn} {start : Nat} {text : List Char}
    (h : d.IsCutFrom start text) :
    text.utf8Encode.extract (d.range.start - start) (d.range.stop - start) = d.text.utf8Encode := by
  obtain ⟨before, behind, rfl, hrange⟩ := h
  have hstart : d.range.start - start = byteLength before := by
    rw [hrange, ByteRange.ofText, Nat.add_sub_cancel_left]
  have hstop : d.range.stop - start = byteLength before + byteLength d.text := by
    rw [hrange, ByteRange.ofText, Nat.add_assoc, Nat.add_sub_cancel_left]
  rw [hstart, hstop]
  exact extract_utf8Encode before d.text behind

namespace Trivia

variable {start : Nat}

/-- Every stretch is cut out of the text of the trivia. -/
theorem isCutFrom_draw {t : Trivia} : ∀ d ∈ t.draw start, d.IsCutFrom start t.text := by
  induction t generalizing start with
  | nil => simp [draw]
  | cons p t ih =>
    intro d hd
    rw [draw, List.mem_append] at hd
    rcases hd with hd | hd
    · obtain ⟨category, -, rfl⟩ := Option.map_eq_some_iff.mp (Option.mem_toList.mp hd)
      refine ⟨[], text t, text_cons p t, ?_⟩
      rw [p.byteSize_eq]
      rfl
    · obtain ⟨before, behind, htext, hrange⟩ := ih d hd
      refine ⟨p.text ++ before, behind, ?_, ?_⟩
      · rw [text_cons, htext]
        simp only [List.append_assoc]
      · rw [hrange, p.byteSize_eq, byteLength_append, Nat.add_assoc]

/-- Stretches stand in order, and no byte is drawn twice. -/
theorem pairwise_draw (start : Nat) (t : Trivia) :
    (t.draw start).Pairwise fun d e => d.range.stop ≤ e.range.start := by
  induction t generalizing start with
  | nil => exact .nil
  | cons p t ih =>
    rw [draw, List.pairwise_append]
    refine ⟨?_, ih _, fun d hd e he => ?_⟩
    · cases p.draw? _ with
      | none => exact .nil
      | some d => exact List.pairwise_singleton ..
    · obtain ⟨category, -, rfl⟩ := Option.map_eq_some_iff.mp (Option.mem_toList.mp hd)
      exact (isCutFrom_draw e he).start_le

end Trivia

-- ---------------------------------------------------------------------------
-- What a byte is drawn as
-- ---------------------------------------------------------------------------

instance (r : ByteRange) (i : Nat) : Decidable (r.Has i) :=
  inferInstanceAs (Decidable (r.start ≤ i ∧ i < r.stop))

/-- What a byte is drawn as, if it is drawn: the category of the first stretch that has it. -/
def categoryAt? (ds : List Drawn) (i : Nat) : Option Category :=
  (ds.find? fun d => d.range.Has i).map Drawn.category

theorem categoryAt?_append (ds es : List Drawn) (i : Nat) :
    categoryAt? (ds ++ es) i = (categoryAt? ds i).or (categoryAt? es i) := by
  rw [categoryAt?, List.find?_append, Option.map_or]
  rfl

/-- A piece is drawn in its own range only. -/
theorem categoryAt?_draw? (p : Piece) (r : ByteRange) (i : Nat) :
    categoryAt? (p.draw? r).toList i = if r.Has i then Category.ofPiece? p else none := by
  unfold Piece.draw?
  cases Category.ofPiece? p with
  | none => simp [categoryAt?]
  | some category => by_cases hi : r.Has i <;> simp [categoryAt?, hi]

namespace Trivia

/-- No byte before the trivia is drawn. -/
theorem categoryAt?_draw_of_lt {t : Trivia} {start i : Nat} (hi : i < start) :
    categoryAt? (t.draw start) i = none := by
  have hnone : (t.draw start).find? (fun d => d.range.Has i) = none := by
    rw [List.find?_eq_none]
    intro d hd hhas
    have hstart := (isCutFrom_draw d hd).start_le
    have hlo := (of_decide_eq_true hhas).1
    omega
  rw [categoryAt?, hnone]
  rfl

/-- Each byte is drawn in its category, and those behind the trivia are not drawn. -/
theorem categoryAt?_draw (t : Trivia) (start i : Nat) :
    categoryAt? (t.draw start) (start + i) = t.categories[i]?.join := by
  induction t generalizing start i with
  | nil => rfl
  | cons p t ih =>
    rw [draw, categoryAt?_append, categoryAt?_draw?]
    rcases Nat.lt_or_ge i p.byteSize with hfirst | hlater
    · have hbefore : start + i < start + p.byteSize := Nat.add_lt_add_left hfirst start
      have hhas : (ByteRange.mk start (start + p.byteSize)).Has (start + i) :=
        ⟨Nat.le_add_right .., hbefore⟩
      rw [if_pos hhas, categoryAt?_draw_of_lt hbefore, Option.or_none, categories_cons_of_lt hfirst]
      rfl
    · have hnot : ¬ (ByteRange.mk start (start + p.byteSize)).Has (start + i) :=
        fun hhas => absurd (Nat.lt_of_add_lt_add_left hhas.2) (Nat.not_lt.mpr hlater)
      have hbehind : start + i = start + p.byteSize + (i - p.byteSize) := by omega
      rw [if_neg hnot, Option.none_or, hbehind, ih, categories_cons_of_le hlater]

end Trivia

/-- A piece is drawn in its category wherever it stands. -/
theorem Piece.category_draw? (p : Piece) (r : ByteRange) :
    (p.draw? r).map Drawn.category = Category.ofPiece? p := by
  unfold draw?
  cases Category.ofPiece? p <;> rfl

/-- Each byte is drawn as the piece that it belongs to is on its own, where that stands among the
pieces that were put together. -/
theorem Trivia.exists_piece_drawn {pieces : List Piece} {start b : Nat} (hlo : start ≤ b)
    (hhi : b < start + byteSize pieces) :
    ∃ before p behind, pieces = before ++ p :: behind ∧ start + byteSize before ≤ b ∧
      b < start + byteSize before + p.byteSize ∧
      ∀ r, categoryAt? ((ofList pieces).draw start) b = (p.draw? r).map Drawn.category := by
  obtain ⟨i, rfl⟩ := Nat.exists_eq_add_of_le hlo
  obtain ⟨before, p, behind, hpieces, hfirst, hlast, hcategory⟩ :=
    exists_piece_of_lt (Nat.lt_of_add_lt_add_left hhi)
  refine ⟨before, p, behind, hpieces, by omega, by omega, fun r => ?_⟩
  rw [categoryAt?_draw, categories_ofList, hcategory, Piece.category_draw?]
  rfl

-- ---------------------------------------------------------------------------
-- The whole statement
-- ---------------------------------------------------------------------------

/-- Where each answer of a list is known, so are all. -/
theorem Checked.mapM_eq {α β : Type} {f : α → Checked β} {g : α → β} {l : List α}
    (h : ∀ a ∈ l, f a = .ok (g a)) : l.mapM f = .ok (l.map g) := by
  induction l with
  | nil => rfl
  | cons a l ih =>
    rw [List.mapM_cons, h a (List.mem_cons_self ..), ih fun b hb => h b (List.mem_cons_of_mem _ hb)]
    rfl

/-- The pieces of trivia that a word measures are measured. -/
theorem Trivia.mapM_checkedSize {t : Trivia} (h : byteSize t ≤ maxWord) :
    t.mapM Piece.checkedSize = .ok (t.map Piece.byteSize) :=
  Checked.mapM_eq fun p hp => by
    rw [p.checkedSize_eq, word_of_le ((byteSize_le_of_mem hp).trans h)]

/-- Pieces that memory has room for are spelled out. -/
theorem Trivia.mapM_checkedText {t : Trivia} (h : byteSize t ≤ maxBytes) :
    t.mapM Piece.checkedText = .ok (t.map Piece.text) :=
  Checked.mapM_eq fun _ hp => Piece.checkedText_of_le ((byteSize_le_of_mem hp).trans h)

/-- **Merging changes neither bytes nor what they are drawn as.** Any pieces whose texts have room in
memory together are put together. The trivia has their text and their size; no runs of one unit are left
side by side, and putting its own pieces together changes nothing. Drawn from any place from which a word
reaches its end, its stretches stand in order, hold the bytes between their ends, and give each byte the
category, or none, that the piece with that byte is drawn in, each of the pieces on its own where it
stands. -/
theorem merging_is_not_seen (pieces : List Piece)
    (hbytes : byteLength (pieces.flatMap Piece.text) ≤ maxBytes) :
    ∃ (t : Trivia) (texts : List (List Char)) (sizes own : List Nat),
      Trivia.checkedOfList pieces = .ok t ∧
      pieces.mapM Piece.checkedText = .ok texts ∧ t.checkedText = .ok texts.flatten ∧
      pieces.mapM Piece.checkedSize = .ok sizes ∧ t.checkedSize = .ok sizes.sum ∧
      t.mapM Piece.checkedSize = .ok own ∧ own.sum = sizes.sum ∧
      sizes.sum = texts.flatten.utf8Encode.size ∧
      (t.IsChain fun p q => ∀ unit m n, p = .run unit m → q ≠ .run unit n) ∧
      Trivia.checkedOfList t = .ok t ∧
      ∀ start, start + sizes.sum ≤ maxWord → ∃ ds, t.checkedDraw start = .ok ds ∧
        ds.Pairwise (fun d e => d.range.stop ≤ e.range.start) ∧
        (∀ d ∈ ds, d.IsCutFrom start texts.flatten ∧
          texts.flatten.utf8Encode.extract (d.range.start - start) (d.range.stop - start) =
            d.text.utf8Encode) ∧
        ∀ b, start ≤ b → b < start + sizes.sum →
          ∃ before p behind offset size drawn, pieces = before ++ p :: behind ∧
            Trivia.checkedSize before = .ok offset ∧ p.checkedSize = .ok size ∧
            start + offset ≤ b ∧ b < start + offset + size ∧
            p.checkedDraw? ⟨start + offset, start + offset + size⟩ = .ok drawn ∧
            categoryAt? ds b = drawn.map Drawn.category := by
  set t := Trivia.ofList pieces with ht
  have hchain : t.IsChain fun p q => p.merge? q = none := Trivia.isChain_ofList pieces
  have hsize : t.byteSize = Trivia.byteSize pieces := Trivia.byteSize_ofList pieces
  have hpieces : Trivia.byteSize pieces ≤ maxBytes := by
    rw [Trivia.byteSize_eq]
    exact hbytes
  have hword : Trivia.byteSize pieces ≤ maxWord := hpieces.trans maxBytes_le_maxWord
  have htext : (pieces.map Piece.text).flatten = t.text := by
    rw [ht, Trivia.text_ofList, List.flatMap_def]
  refine ⟨t, pieces.map Piece.text, pieces.map Piece.byteSize, t.map Piece.byteSize,
    Trivia.checkedOfList_eq hword, Trivia.mapM_checkedText hpieces, ?_,
    Trivia.mapM_checkedSize hword, ?_, Trivia.mapM_checkedSize (hsize ▸ hword), ?_, ?_,
    hchain.imp fun _ _ => Piece.merge?_eq_none_iff.mp, ?_, fun start hstart => ?_⟩
  · rw [htext, Trivia.checkedText_eq, ← Trivia.byteSize_eq, hsize, if_pos hpieces]
  · rw [← Trivia.byteSize_eq_sum, Trivia.checkedSize_eq, hsize, word_of_le hword]
  · rw [← Trivia.byteSize_eq_sum, ← Trivia.byteSize_eq_sum, hsize]
  · rw [← Trivia.byteSize_eq_sum, htext, size_utf8Encode, ← Trivia.byteSize_eq, hsize]
  · rw [Trivia.checkedOfList_eq (hsize ▸ hword), Trivia.ofList_eq_self hchain]
  rw [← Trivia.byteSize_eq_sum] at hstart ⊢
  refine ⟨t.draw start, Trivia.checkedDraw_eq (hsize ▸ hpieces) (hsize ▸ hstart),
    t.pairwise_draw start, fun d hd => ?_, fun b hlo hhi => ?_⟩
  · have hcut := Trivia.isCutFrom_draw d hd
    rw [htext]
    exact ⟨hcut, hcut.extract_eq⟩
  · -- the byte belongs to one of the pieces that were put together
    obtain ⟨before, p, behind, hsplit, hfirst, hlast, hdrawn⟩ := Trivia.exists_piece_drawn hlo hhi
    rw [hsplit, Trivia.byteSize_append, Trivia.byteSize] at hpieces hword
    refine ⟨before, p, behind, Trivia.byteSize before, p.byteSize, p.draw? _, hsplit, ?_, ?_, hfirst,
      hlast, Piece.checkedDraw?_of_le (by omega) _, hdrawn _⟩
    · rw [Trivia.checkedSize_eq, word_of_le (by omega)]
    · rw [p.checkedSize_eq, word_of_le (by omega)]

/-- A run that repeats nothing, breaks that become one run, and a character of garbage behind them. -/
theorem merging_is_not_seen_breaks :
    let pieces : List Piece := [.run .space 0, .run .returnNewline 1, .run .returnNewline 2,
      .run .backtick 1, .run .backtick 0, .garbage ['§']]
    let t : Trivia := [.run .space 0, .run .returnNewline 3, .run .backtick 1, .garbage ['§']]
    let d : Drawn := ⟨['\r', '\n', '\r', '\n', '\r', '\n'], .newline, ⟨10, 16⟩⟩
    byteLength (pieces.flatMap Piece.text) ≤ maxBytes ∧ Trivia.checkedOfList pieces = .ok t ∧
    Trivia.checkedOfList t = .ok t ∧ 10 + 9 ≤ maxWord ∧
    ∃ ds, t.checkedDraw 10 = .ok ds ∧ d ∈ ds ∧ d.IsCutFrom 10 t.text ∧
      10 ≤ 18 ∧ 18 < 10 + 9 ∧ categoryAt? ds 18 = none ∧
      ∃ before p behind offset size drawn, pieces = before ++ p :: behind ∧
        Trivia.checkedSize before = .ok offset ∧ p.checkedSize = .ok size ∧
        10 + offset ≤ 18 ∧ 18 < 10 + offset + size ∧
        p.checkedDraw? ⟨10 + offset, 10 + offset + size⟩ = .ok drawn ∧
        categoryAt? ds 18 = drawn.map Drawn.category := by
  intro pieces t d
  have hbytes : byteLength (pieces.flatMap Piece.text) ≤ maxBytes := by decide
  have hword : 10 + 9 ≤ maxWord := by decide
  obtain ⟨u, texts, sizes, own, hbuilt, htexts, -, hsizes, -, -, -, -, -, hagain, hdraw⟩ :=
    merging_is_not_seen pieces hbytes
  obtain rfl : t = u := Except.ok.inj hbuilt
  obtain rfl : pieces.map Piece.text = texts := Except.ok.inj htexts
  obtain rfl : [0, 2, 4, 1, 0, 2] = sizes := Except.ok.inj hsizes
  obtain ⟨ds, hds, -, hcut, hbyte⟩ := hdraw 10 hword
  obtain rfl : [⟨[], .unknown, ⟨10, 10⟩⟩, d] = ds := Except.ok.inj hds
  exact ⟨hbytes, hbuilt, hagain, hword, _, hds, by decide, (hcut d (by decide)).1, by decide,
    by decide, by decide, hbyte 18 (by decide) (by decide)⟩

/-- Breaks that a machine can count and measure, but that memory has no room for, are neither spelled
out nor drawn; and no word reaches the end of a blank in the last place. -/
theorem breaks_exceed_memory :
    let pieces : List Piece := [.run .returnNewline (2 ^ 62)]
    Trivia.checkedOfList pieces = .ok pieces ∧ Trivia.checkedSize pieces = .ok (2 ^ 63) ∧
      Trivia.checkedText pieces = .error .capacity ∧
      Trivia.checkedDraw 0 pieces = .error .capacity ∧
      Trivia.checkedDraw maxWord [.run .space 1] = .error .overflow :=
  ⟨rfl, rfl, rfl, rfl, rfl⟩

end SwiftColoring
