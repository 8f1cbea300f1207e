import SwiftColoring.Proofs.Coverage
import SwiftColoring.Proofs.Pieces
import SwiftColoring.Proofs.Reachable

/-!
# Cutting a source into its parts

Calls hand out tokens, but a token is cut off the source part by part: the pieces of trivia before its
lexeme, the lexeme, and the pieces behind it. `Takes` is one such cut. It asks the same of a piece on
either side of a lexeme, so that the parts of a source are told by what is left of it, whatever token
they were handed out with.

* `Lexer.takesAll_gap` — the pieces of a gap are cut off one after the other.
* `Lexer.takesAll_next` — so are the parts of a token that a call hands out.
* `Lexer.takesAll_of_tokens` — and the parts of all tokens of a source.
* `Lexer.exists_takes_of_tokens` — the cut of a token's own text.
* `Lexer.TakesAll.exists_last` — the cut before a part.
-/

namespace SwiftColoring

namespace Lexer

/-- The lexer cuts the part off the front of what is left. -/
inductive Takes (l : Lexer) : Part → Lexer → Prop where
  | piece {p : Piece} (hcode : l.context.isCode = true)
      (hpiece : GapStart.ofText false l.before.isEmpty l.rest = .piece p) :
      Takes l (.piece p) (l.advance p.text.length)
  /-- In code a lexeme is cut off only where no trivia is left. -/
  | lexeme {x : Lexeme}
      (hstop : l.context.isCode = true → GapStart.ofText false l.before.isEmpty l.rest = .nothing)
      (hx : l.lexeme = .ok x) : Takes l (.lexeme x.kind (l.rest.take x.length)) (l.accept x)

/-- The lexer cuts the parts off in turn. -/
inductive TakesAll : Lexer → List Part → Lexer → Prop where
  | nil {l : Lexer} : TakesAll l [] l
  | cons {l k m : Lexer} {p : Part} {parts : List Part} (hfirst : Takes l p k)
      (hrest : TakesAll k parts m) : TakesAll l (p :: parts) m

variable {source : List Char} {l k m behind : Lexer} {p q : Part} {parts others : List Part} {t : Token}
  {ts : List Token}

-- ---------------------------------------------------------------------------
-- One cut
-- ---------------------------------------------------------------------------

theorem Takes.start_of_piece {p : Piece} (h : l.Takes (.piece p) k) :
    GapStart.ofText false l.before.isEmpty l.rest = .piece p := by
  cases h with
  | piece _ hpiece => exact hpiece

theorem Takes.stop_of_lexeme {kind : Kind} {text : List Char} (h : l.Takes (.lexeme kind text) k)
    (hcode : l.context.isCode = true) :
    GapStart.ofText false l.before.isEmpty l.rest = .nothing := by
  cases h with
  | lexeme hstop => exact hstop hcode

theorem Takes.exists_lexeme {kind : Kind} {text : List Char} (h : l.Takes (.lexeme kind text) k) :
    ∃ x, l.lexeme = .ok x ∧ k = l.accept x := by
  cases h with
  | lexeme _ hx => exact ⟨_, hx, rfl⟩

theorem Takes.rest_eq (h : l.Takes p k) : l.rest = p.text ++ k.rest := by
  cases h with
  | piece _ hpiece =>
    obtain ⟨rest, hrest⟩ := (GapStart.ofText_eq_piece hpiece).2
    rw [advance_toCursor, Cursor.advance_rest, ← hrest, List.drop_left]
    rfl
  | lexeme => exact (List.take_append_drop ..).symm

theorem Takes.before_eq (h : l.Takes p k) : k.before = p.text.reverse ++ l.before := by
  cases h with
  | piece _ hpiece =>
    obtain ⟨rest, hrest⟩ := (GapStart.ofText_eq_piece hpiece).2
    rw [advance_toCursor, Cursor.advance_before, ← hrest, List.take_left]
    rfl
  | lexeme => rfl

theorem Takes.inOrder (h : l.Takes p k) (hl : l.InOrder source) : k.InOrder source := by
  cases h with
  | piece hcode =>
    refine hl.advance _ fun opening hopening => ?_
    rw [hopening] at hcode
    cases hcode
  | lexeme _ hx => exact hl.accept hx

/-- A cut leads to one place only. -/
theorem Takes.eq_of_takes (h : l.Takes p k) (h' : l.Takes p m) : k = m := by
  cases h with
  | piece => cases h'; rfl
  | @lexeme x _ hx =>
    generalize hq : Part.lexeme x.kind (l.rest.take x.length) = q at h'
    cases h' with
    | piece => cases hq
    | lexeme _ hx' => rw [Except.ok.inj (hx.symm.trans hx')]

/-- A part has text, unless it ends the source. -/
theorem Takes.text_ne_nil (h : l.Takes p k) (hl : l.InOrder source)
    (hp : ∀ text, p ≠ .lexeme .eof text) : p.text ≠ [] := by
  cases h with
  | piece _ hpiece => exact (GapStart.ofText_eq_piece hpiece).1
  | @lexeme x _ hx =>
    obtain ⟨hrest, hpos⟩ := hl.rest_ne_nil hx fun heof => hp _ (by rw [heof])
    intro hnil
    rcases List.take_eq_nil_iff.mp hnil with hzero | hnone
    · exact absurd hzero (Nat.ne_of_gt hpos)
    · exact hrest hnone

-- ---------------------------------------------------------------------------
-- Cuts in a row
-- ---------------------------------------------------------------------------

theorem TakesAll.rest_eq (h : l.TakesAll parts m) : l.rest = Part.textOf parts ++ m.rest := by
  induction h with
  | nil => rfl
  | cons hfirst _ ih => rw [Part.textOf_cons, List.append_assoc, ← ih, hfirst.rest_eq]

theorem TakesAll.before_eq (h : l.TakesAll parts m) :
    m.before = (Part.textOf parts).reverse ++ l.before := by
  induction h with
  | nil => rfl
  | cons hfirst _ ih =>
    rw [Part.textOf_cons, List.reverse_append, List.append_assoc, ← hfirst.before_eq, ih]

theorem TakesAll.inOrder (h : l.TakesAll parts m) (hl : l.InOrder source) : m.InOrder source := by
  induction h with
  | nil => exact hl
  | cons hfirst _ ih => exact ih (hfirst.inOrder hl)

theorem TakesAll.append (h : l.TakesAll parts k) (hmore : k.TakesAll others m) :
    l.TakesAll (parts ++ others) m := by
  induction h with
  | nil => exact hmore
  | cons hfirst _ ih => exact .cons hfirst (ih hmore)

theorem TakesAll.eq_of_takesAll (h : l.TakesAll parts k) (h' : l.TakesAll parts m) : k = m := by
  induction h with
  | nil =>
    cases h'
    rfl
  | cons hfirst _ ih =>
    cases h' with
    | cons hfirst' hrest' =>
      obtain rfl := hfirst.eq_of_takes hfirst'
      exact ih hrest'

/-- Cuts in a row can be split at any part. -/
theorem TakesAll.exists_between (h : l.TakesAll (parts ++ others) m) :
    ∃ k, l.TakesAll parts k ∧ k.TakesAll others m := by
  induction parts generalizing l with
  | nil => exact ⟨l, .nil, h⟩
  | cons p parts ih =>
    rw [List.cons_append] at h
    cases h with
    | cons hfirst hrest =>
      obtain ⟨k, hparts, hothers⟩ := ih hrest
      exact ⟨k, .cons hfirst hparts, hothers⟩

/-- The cut that led to where the lexer stands. -/
theorem TakesAll.exists_last (h : l.TakesAll parts m) (hlast : parts.getLast? = some q) :
    ∃ k, l.TakesAll parts.dropLast k ∧ k.Takes q m := by
  obtain ⟨first, rfl⟩ := List.getLast?_eq_some_iff.mp hlast
  obtain ⟨k, hfirst, hrest⟩ := h.exists_between
  rw [List.dropLast_concat]
  cases hrest with
  | cons hq hnil =>
    cases hnil
    exact ⟨k, hfirst, hq⟩

/-- The cut that leads on from where the lexer stands. -/
theorem TakesAll.exists_first (h : l.TakesAll parts m) (hfirst : parts.head? = some q) :
    ∃ k, l.Takes q k := by
  cases h with
  | nil => cases hfirst
  | cons hq =>
    obtain rfl := Option.some.inj hfirst
    exact ⟨_, hq⟩

-- ---------------------------------------------------------------------------
-- The parts of tokens
-- ---------------------------------------------------------------------------

/-- A piece that is found behind a lexeme would be found before the next one. -/
theorem takes_of_start {trailing : Bool} {p : Piece} (hcode : l.context.isCode = true)
    (h : GapStart.ofText trailing l.before.isEmpty l.rest = .piece p) :
    l.Takes (.piece p) (l.advance p.text.length) := by
  refine .piece hcode ?_
  cases trailing with
  | false => exact h
  | true => rw [GapStart.ofText_of_trailing (by rw [h]; simp), h]

theorem takesAll_gap (hcode : l.context.isCode = true) (trailing : Bool) :
    l.TakesAll ((Gap.ofText trailing l.before.isEmpty l.rest).pieces.map .piece)
      (l.advance (Gap.ofText trailing l.before.isEmpty l.rest).length) := by
  induction hlength : l.rest.length using Nat.strongRecOn generalizing l with
  | ind n ih =>
    subst hlength
    cases hstart : GapStart.ofText trailing l.before.isEmpty l.rest with
    | nothing =>
      rw [Gap.ofText_of_nothing hstart]
      simpa [Gap.length, advance] using TakesAll.nil (l := l)
    | openComment =>
      rw [Gap.ofText_of_openComment hstart]
      simpa [Gap.length, advance] using TakesAll.nil (l := l)
    | piece p =>
      obtain ⟨hne, hprefix⟩ := GapStart.ofText_eq_piece hstart
      have hpos := List.length_pos_iff.mpr hne
      have hle := hprefix.length_le
      have hfirst := takes_of_start hcode hstart
      -- behind the piece the lexer is no longer at the start of the source
      have hempty : (l.advance p.text.length).before.isEmpty = false := by
        rw [hfirst.before_eq]
        simp [Part.text, hne]
      have hshort : (l.advance p.text.length).rest.length < l.rest.length := by
        rw [advance_toCursor, Cursor.advance_rest, List.length_drop]
        omega
      have hrest := ih _ hshort (l := l.advance p.text.length) hcode rfl
      rw [hempty, advance_advance] at hrest
      rw [Gap.ofText_of_piece hstart, Gap.length, Trivia.text_cons, List.length_append]
      exact .cons hfirst hrest

theorem takesAll_takeGap {trailing : Bool} {trivia : Trivia} (hcode : l.context.isCode = true)
    (h : l.takeGap trailing = (.ok trivia, behind)) : l.TakesAll (trivia.map .piece) behind := by
  obtain ⟨-, rfl, rfl⟩ := takeGap_ok_iff.mp h
  rw [Trivia.ofList_pieces]
  exact takesAll_gap hcode trailing

theorem takesAll_takeLeading {trivia : Trivia} (h : l.takeLeading = (.ok trivia, behind)) :
    l.TakesAll (trivia.map .piece) behind := by
  unfold takeLeading at h
  split at h
  · exact takesAll_takeGap ‹_› h
  · cases h
    exact .nil

theorem takesAll_takeTrailing {trivia : Trivia} {kind : Kind}
    (h : l.takeTrailing kind = (.ok trivia, behind)) : l.TakesAll (trivia.map .piece) behind := by
  unfold takeTrailing at h
  split at h
  · rename_i hcode
    exact takesAll_takeGap (Bool.and_eq_true_iff.mp hcode).1 h
  · cases h
    exact .nil

/-- The token that a call hands out is cut off part by part. -/
theorem takesAll_next (h : l.next = (.ok t, behind)) : l.TakesAll t.parts behind := by
  obtain ⟨leading, here, x, trailing, hleading, hx, htrailing, rfl⟩ := next_ok_iff.mp h
  obtain ⟨hpasses, hstop, -⟩ := takeLeading_ok hleading
  have hcontext : here.context = l.context := by
    rw [hpasses.eq_advance, advance_context]
  refine (takesAll_takeLeading hleading).append (.cons (.lexeme (fun hcode => ?_) hx) ?_)
  · exact hstop (hcontext ▸ hcode)
  · exact takesAll_takeTrailing htrailing

theorem Reads.takesAll (h : l.Reads ts m) : l.TakesAll (partsOf ts) m := by
  induction h with
  | nil => exact .nil
  | snoc _ hnext _ ih =>
    rw [partsOf, List.flatMap_append, List.flatMap_singleton]
    exact ih.append (takesAll_next hnext)

/-- The parts of the tokens of a source are cut off it until nothing is left. -/
theorem takesAll_of_tokens (h : tokens source = .ok ts) :
    ∃ m, (ofText source).TakesAll (partsOf ts) m ∧ m.rest = [] := by
  obtain ⟨init, eof, m, last, rfl, hreads, hnext, hkind⟩ := exists_reads_of_tokens h
  obtain ⟨here, x, hcut⟩ := next_cut hnext
  refine ⟨last, ?_, hcut.rest_of_eof hkind⟩
  rw [partsOf, List.flatMap_append, List.flatMap_singleton]
  exact hreads.takesAll.append (takesAll_next hnext)

/-- The cut of a token's own text, between those of what stands before and behind it. -/
theorem exists_takes_of_tokens {before others : List Token}
    (h : tokens source = .ok (before ++ t :: others)) :
    ∃ k m n, (ofText source).TakesAll (partsOf before ++ t.leading.map .piece) k ∧
      k.Takes (.lexeme t.kind t.text) m ∧ m.TakesAll (t.trailing.map .piece ++ partsOf others) n := by
  obtain ⟨n, hall, -⟩ := takesAll_of_tokens h
  rw [partsOf_split] at hall
  obtain ⟨k, hbefore, hrest⟩ := hall.exists_between
  cases hrest with
  | cons hfirst hbehind => exact ⟨k, _, n, hbefore, hfirst, hbehind⟩

end Lexer

end SwiftColoring
