import SwiftColoring.Drawing.Checked
import SwiftColoring.Drawing.Token
import SwiftColoring.Proofs.Lossless

/-!
# What fits a machine

On a machine a size may be too large for a word, and a text too large for memory. Here it is told exactly
when that happens to trivia. Where it does not, the machine answers what is said without bounds, and the
trivia of a source in memory is an instance: its sizes and places are bounded by those of the source.

* `Trivia.checkedSize_eq`, `Trivia.checkedText_eq` — there is a size iff a word holds it, and a text iff
  memory has room for it.
* `Trivia.checkedOfList_eq`, `Trivia.checkedDraw_eq` — what fits is put together and drawn.
* `Trivia.eq_draw_of_checkedDraw` — only what fits is drawn.
* `trivia_of_source_fits` — all trivia that a source is cut into fits.
-/

namespace SwiftColoring

theorem word_of_le {n : Nat} (h : n ≤ maxWord) : word n = .ok n := if_pos h

theorem word_of_lt {n : Nat} (h : maxWord < n) : word n = .error .overflow :=
  if_neg (Nat.not_le_of_lt h)

/-- A word is the number that it holds. -/
theorem word_eq_ok {m n : Nat} (h : word m = .ok n) : m ≤ maxWord ∧ n = m := by
  rcases Nat.lt_or_ge maxWord m with hover | hfits
  · rw [word_of_lt hover] at h
    cases h
  · rw [word_of_le hfits] at h
    exact ⟨hfits, (Except.ok.inj h).symm⟩

/-- An answer found in two steps is found in the first and in the second. -/
theorem Checked.exists_of_bind {α β : Type} {x : Checked α} {f : α → Checked β} {b : β}
    (h : (x >>= f) = .ok b) : ∃ a, x = .ok a ∧ f a = .ok b := by
  cases x with
  | error fault => cases h
  | ok a => exact ⟨a, rfl, h⟩

/-- A sum is a word only if its parts are. -/
theorem word_bind_add (m n : Nat) : (word m >>= fun k => word (n + k)) = word (n + m) := by
  rcases Nat.lt_or_ge maxWord m with hm | hm
  · rw [word_of_lt hm, word_of_lt (Nat.lt_of_lt_of_le hm (Nat.le_add_left ..))]
    rfl
  · rw [word_of_le hm]
    rfl

theorem maxBytes_le_maxWord : maxBytes ≤ maxWord := by decide

namespace Piece

/-- The size of a piece is known iff a word holds it. -/
theorem checkedSize_eq (p : Piece) : p.checkedSize = word p.byteSize := by
  cases p <;> rfl

/-- The place behind a piece is known iff it is a word. -/
theorem checkedStop_eq (p : Piece) (start : Nat) : p.checkedStop start = word (start + p.byteSize) := by
  rw [checkedStop, p.checkedSize_eq, word_bind_add]

/-- A piece is spelled out if memory has room for it. -/
theorem checkedText_of_le {p : Piece} (h : p.byteSize ≤ maxBytes) : p.checkedText = .ok p.text := by
  cases p with
  | run unit count => exact if_pos h
  | lineComment | blockComment | garbage => rfl

/-- A piece is spelled out as it is, if at all. -/
theorem checkedText_cases (p : Piece) :
    p.checkedText = .ok p.text ∨ (maxBytes < p.byteSize ∧ p.checkedText = .error .capacity) := by
  cases p with
  | run unit count =>
    rcases Nat.lt_or_ge maxBytes (byteSize (.run unit count)) with hsize | hsize
    · exact .inr ⟨hsize, if_neg (Nat.not_le_of_lt hsize)⟩
    · exact .inl (if_pos hsize)
  | lineComment | blockComment | garbage => exact .inl rfl

/-- A piece is written iff memory has room for it behind what is written already. -/
theorem checkedWrite_eq (p : Piece) (written : List Char) :
    p.checkedWrite written = if byteLength written + p.byteSize ≤ maxBytes then .ok (written ++ p.text)
      else .error .capacity := by
  unfold checkedWrite
  rcases p.checkedText_cases with htext | ⟨hsize, htext⟩
  · rw [htext, p.byteSize_eq]
    rfl
  · rw [htext, if_neg (by omega)]
    rfl

/-- A piece is drawn if memory has room for it. -/
theorem checkedDraw?_of_le {p : Piece} (h : p.byteSize ≤ maxBytes) (range : ByteRange) :
    p.checkedDraw? range = .ok (p.draw? range) := by
  unfold checkedDraw? draw?
  cases Category.ofPiece? p with
  | none => rfl
  | some category =>
    rw [checkedText_of_le h]
    rfl

/-- A piece is drawn as it is without bounds, if at all. -/
theorem eq_draw?_of_checkedDraw? {p : Piece} {range : ByteRange} {d : Option Drawn}
    (h : p.checkedDraw? range = .ok d) : d = p.draw? range := by
  unfold checkedDraw? at h
  unfold draw?
  cases hcategory : Category.ofPiece? p with
  | none =>
    rw [hcategory] at h
    exact (Except.ok.inj h).symm
  | some category =>
    rw [hcategory] at h
    obtain ⟨text, htext, h⟩ := Checked.exists_of_bind h
    rcases p.checkedText_cases with hok | ⟨-, hfault⟩
    · obtain rfl := Except.ok.inj (hok.symm.trans htext)
      exact (Except.ok.inj h).symm
    · rw [hfault] at htext
      cases htext

/-- A run counts no more than it has bytes. -/
theorem count_le_byteSize (unit : RunUnit) (count : Nat) : count ≤ byteSize (.run unit count) :=
  Nat.le_mul_of_pos_left count (List.length_pos_iff.mpr unit.text_ne_nil)

end Piece

namespace Trivia

variable {t : Trivia} {start : Nat}

theorem byteSize_append (t u : Trivia) : byteSize (t ++ u) = byteSize t + byteSize u := by
  induction t with
  | nil => exact (Nat.zero_add _).symm
  | cons p t ih =>
    rw [List.cons_append, byteSize, byteSize, ih, Nat.add_assoc]

theorem byteSize_le_of_mem {p : Piece} (hp : p ∈ t) : p.byteSize ≤ byteSize t := by
  obtain ⟨before, behind, rfl⟩ := List.append_of_mem hp
  rw [byteSize_append, byteSize]
  omega

/-- Merging changes no size. -/
theorem byteSize_ofList (pieces : List Piece) : (ofList pieces).byteSize = byteSize pieces := by
  rw [byteSize_eq, text_ofList, byteSize_eq]
  rfl

-- ---------------------------------------------------------------------------
-- Sizes and texts
-- ---------------------------------------------------------------------------

/-- Trivia is measured piece by piece, unless no word holds a place on the way. -/
theorem foldlM_checkedStop (t : Trivia) {size : Nat} (hsize : size ≤ maxWord) :
    t.foldlM (fun size p => p.checkedStop size) size = word (size + byteSize t) := by
  induction t generalizing size with
  | nil => exact (word_of_le hsize).symm
  | cons p t ih =>
    rw [List.foldlM_cons, p.checkedStop_eq, byteSize, ← Nat.add_assoc]
    rcases Nat.lt_or_ge maxWord (size + p.byteSize) with hover | hfits
    · rw [word_of_lt hover, word_of_lt (Nat.lt_of_lt_of_le hover (Nat.le_add_right ..))]
      rfl
    · rw [word_of_le hfits]
      exact ih hfits

/-- The size of trivia is known iff a word holds it. -/
theorem checkedSize_eq (t : Trivia) : t.checkedSize = word t.byteSize := by
  rw [checkedSize, foldlM_checkedStop t (Nat.zero_le _), Nat.zero_add]

/-- Trivia is written piece by piece, unless memory has no room for what comes next. -/
theorem foldlM_checkedWrite (t : Trivia) {written : List Char} (hwritten : byteLength written ≤ maxBytes) :
    t.foldlM (fun written p => p.checkedWrite written) written =
      if byteLength written + byteSize t ≤ maxBytes then .ok (written ++ t.text)
      else .error .capacity := by
  induction t generalizing written with
  | nil =>
    rw [text_nil, List.append_nil, byteSize, Nat.add_zero, if_pos hwritten]
    rfl
  | cons p t ih =>
    rw [List.foldlM_cons, p.checkedWrite_eq, text_cons, byteSize, ← Nat.add_assoc]
    by_cases hfits : byteLength written + p.byteSize ≤ maxBytes
    · have hnext : byteLength (written ++ p.text) = byteLength written + p.byteSize := by
        rw [byteLength_append, p.byteSize_eq]
      rw [if_pos hfits, ← List.append_assoc, ← hnext]
      exact ih (hnext ▸ hfits)
    · rw [if_neg hfits, if_neg (by omega)]
      rfl

/-- Trivia is spelled out iff memory has room for it. -/
theorem checkedText_eq (t : Trivia) :
    t.checkedText = if byteLength t.text ≤ maxBytes then .ok t.text else .error .capacity := by
  rw [checkedText, foldlM_checkedWrite t (Nat.zero_le _), byteLength_nil, Nat.zero_add,
    List.nil_append, byteSize_eq]

-- ---------------------------------------------------------------------------
-- Putting together
-- ---------------------------------------------------------------------------

/-- A piece is added as it is without bounds, unless a run would count more than a word. -/
theorem checkedPush_cases (t : Trivia) (p : Piece) :
    checkedPush t p = .ok (push t p) ∨
      ∃ unit count, .run unit count ∈ push t p ∧ maxWord < count ∧
        checkedPush t p = .error .overflow := by
  fun_induction checkedPush t p with
  | case1 p => exact .inl rfl
  | case2 m u n =>
    have hmerged : push [.run u m] (.run u n) = [.run u (m + n)] := by
      simp [push, Piece.merge?]
    rw [hmerged]
    rcases Nat.lt_or_ge maxWord (m + n) with hover | hfits
    · rw [word_of_lt hover]
      exact .inr ⟨u, m + n, List.mem_singleton_self _, hover, rfl⟩
    · rw [word_of_le hfits]
      exact .inl rfl
  | case3 u m v n hne => simp [push, Piece.merge?, hne]
  | case4 q p hnot =>
    have hapart : q.merge? p = none := by
      cases q <;> cases p <;> first | rfl | exact (hnot _ _ _ _ rfl rfl).elim
    rw [push, hapart]
    exact .inl rfl
  | case5 q r t p ih =>
    rw [push]
    rcases ih with hok | ⟨unit, count, hmem, hover, hfault⟩
    · rw [hok]
      exact .inl rfl
    · rw [hfault]
      exact .inr ⟨unit, count, List.mem_cons_of_mem _ hmem, hover, rfl⟩

/-- Pieces are put together as they are without bounds, unless they are larger than a word. -/
theorem checkedOfList_cases (pieces : List Piece) :
    checkedOfList pieces = .ok (ofList pieces) ∨
      (maxWord < byteSize pieces ∧ checkedOfList pieces = .error .overflow) := by
  induction pieces using List.reverseRecOn with
  | nil => exact .inl rfl
  | append_singleton pieces p ih =>
    have hconcat : checkedOfList (pieces ++ [p]) = checkedOfList pieces >>= fun t => checkedPush t p := by
      rw [checkedOfList, List.foldlM_append]
      simp only [List.foldlM_cons, List.foldlM_nil, bind_pure]
      rfl
    rw [hconcat, byteSize_append]
    rcases ih with hok | ⟨hover, hfault⟩
    · rw [hok, ofList_concat]
      rcases checkedPush_cases (ofList pieces) p with hpush | ⟨unit, count, hmem, hover, hfault⟩
      · exact .inl hpush
      · -- a run is no larger than all the pieces together
        have hcount := (Piece.count_le_byteSize unit count).trans (byteSize_le_of_mem hmem)
        rw [← ofList_concat, byteSize_ofList, byteSize_append] at hcount
        exact .inr ⟨Nat.lt_of_lt_of_le hover hcount, hfault⟩
    · rw [hfault]
      exact .inr ⟨Nat.lt_of_lt_of_le hover (Nat.le_add_right ..), rfl⟩

/-- Pieces that a word measures are put together. -/
theorem checkedOfList_eq {pieces : List Piece} (h : byteSize pieces ≤ maxWord) :
    checkedOfList pieces = .ok (ofList pieces) :=
  (checkedOfList_cases pieces).resolve_right fun hover => Nat.not_le_of_lt hover.1 h

-- ---------------------------------------------------------------------------
-- Drawing
-- ---------------------------------------------------------------------------

/-- Trivia that fits is drawn wherever its end is a word. -/
theorem checkedDraw_eq (hbytes : byteSize t ≤ maxBytes) (hstop : start + byteSize t ≤ maxWord) :
    t.checkedDraw start = .ok (t.draw start) := by
  induction t generalizing start with
  | nil => rfl
  | cons p t ih =>
    rw [byteSize] at hbytes hstop
    rw [checkedDraw, p.checkedStop_eq, word_of_le (by omega), draw]
    show (p.checkedDraw? _ >>= _) = _
    rw [Piece.checkedDraw?_of_le (by omega)]
    show (checkedDraw _ t >>= _) = _
    rw [ih (by omega) (by omega)]
    rfl

/-- Trivia is drawn only where its end is a word, and as it is without bounds. -/
theorem eq_draw_of_checkedDraw {ds : List Drawn} (hstart : start ≤ maxWord)
    (h : t.checkedDraw start = .ok ds) : start + byteSize t ≤ maxWord ∧ ds = t.draw start := by
  induction t generalizing start ds with
  | nil => exact ⟨hstart, (Except.ok.inj h).symm⟩
  | cons p t ih =>
    rw [checkedDraw, p.checkedStop_eq] at h
    obtain ⟨stop, hstop, h⟩ := Checked.exists_of_bind h
    obtain ⟨hfits, rfl⟩ := word_eq_ok hstop
    obtain ⟨drawn, hdrawn, h⟩ := Checked.exists_of_bind h
    obtain ⟨rest, hrest, h⟩ := Checked.exists_of_bind h
    obtain ⟨hbehind, rfl⟩ := ih hfits hrest
    obtain rfl := Except.ok.inj h
    rw [byteSize, ← Nat.add_assoc, draw, Piece.eq_draw?_of_checkedDraw? hdrawn]
    exact ⟨hbehind, rfl⟩

/-- The machine measures the trivia, spells it out, and draws it from the place on. -/
structure Fits (t : Trivia) (start : Nat) : Prop where
  size_eq : t.checkedSize = .ok t.byteSize
  text_eq : t.checkedText = .ok t.text
  draw_eq : t.checkedDraw start = .ok (t.draw start)

/-- Trivia that memory has room for fits wherever its end is a word. -/
theorem fits_of_le (hbytes : byteSize t ≤ maxBytes) (hstop : start + byteSize t ≤ maxWord) :
    t.Fits start where
  size_eq := by rw [checkedSize_eq, word_of_le (hbytes.trans maxBytes_le_maxWord)]
  text_eq := by rw [checkedText_eq, ← byteSize_eq, if_pos hbytes]
  draw_eq := checkedDraw_eq hbytes hstop

end Trivia

-- ---------------------------------------------------------------------------
-- The trivia of a source
-- ---------------------------------------------------------------------------

/-- All trivia that a source in memory is cut into fits, where it is drawn. -/
theorem trivia_of_source_fits {source : List Char} {ts : List Token} {t : Token}
    (hsource : byteLength source ≤ maxBytes) (hts : tokens source = .ok ts) (ht : t ∈ ts) :
    t.leading.Fits t.fullStart ∧ t.trailing.Fits t.range.stop := by
  obtain ⟨before, behind, rfl⟩ := List.append_of_mem ht
  obtain ⟨hturn, hwhole⟩ := standInTurn_of_tokens hts
  obtain ⟨-, hstands, -⟩ := StandInTurn.append_iff.mp hturn
  rw [List.nil_append] at hstands
  have hstop : t.range.stop = _ := hstands.stop_offset
  -- no byte of the token lies behind the end of the source
  have hlength := congrArg byteLength hwhole
  rw [List.flatMap_append, List.flatMap_cons, byteLength_append, byteLength_append, Token.fullText,
    byteLength_append, byteLength_append, ← Trivia.byteSize_eq, ← Trivia.byteSize_eq] at hlength
  have hword := maxBytes_le_maxWord
  constructor
  · rw [hstands.fullStart_eq]
    exact Trivia.fits_of_le (by omega) (by omega)
  · rw [hstop]
    exact Trivia.fits_of_le (by omega) (by omega)

end SwiftColoring
