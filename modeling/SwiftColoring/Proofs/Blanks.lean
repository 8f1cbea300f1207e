import Mathlib.Data.List.TakeWhile
import SwiftColoring.Proofs.Coverage
import SwiftColoring.Proofs.Stop

/-!
# Blanks among trivia

Blanks between two tokens can be exchanged for others without the trivia around them going on further
or less far. It matters only that they are trivia, and not part of a comment; whether they are shows in
the parts of the tokens, which say of each character whether it stands in a run of blanks.

* `Indents` — a text that is blank, and not empty.
* `blanksOf` — which characters of parts stand in runs of blanks.
* `Gap.exchange` — trivia in which blanks are exchanged.
-/

namespace SwiftColoring

-- ---------------------------------------------------------------------------
-- Blanks
-- ---------------------------------------------------------------------------

/-- A space or a tab. -/
def IsBlank (c : Char) : Prop := c = ' ' ∨ c = '\t'

theorem IsBlank.mem_stoppers {b : Char} (h : IsBlank b) : b ∈ stoppers := by
  rcases h with rfl | rfl <;> decide

/-- The text consists of blanks, and of one at least. -/
structure Indents (w : List Char) : Prop where
  ne_nil : w ≠ []
  blank : ∀ c ∈ w, IsBlank c

/-- Runs of spaces and runs of tabs. -/
def Part.isBlank : Part → Bool
  | .piece (.run .space _) | .piece (.run .tab _) => true
  | _ => false

/-- Of each character of the parts, whether it stands in a run of blanks. -/
def blanksOf (parts : List Part) : List Bool :=
  parts.flatMap fun p => List.replicate p.text.length p.isBlank

theorem blanksOf_cons (p : Part) (parts : List Part) :
    blanksOf (p :: parts) = List.replicate p.text.length p.isBlank ++ blanksOf parts :=
  List.flatMap_cons

theorem blanksOf_append (parts others : List Part) :
    blanksOf (parts ++ others) = blanksOf parts ++ blanksOf others := List.flatMap_append

theorem length_blanksOf (parts : List Part) : (blanksOf parts).length = (Part.textOf parts).length := by
  induction parts with
  | nil => rfl
  | cons p parts ih =>
    rw [blanksOf_cons, Part.textOf_cons, List.length_append, List.length_append, ih,
      List.length_replicate]

/-- Where the first characters stand in no run of blanks, a blank comes later. -/
theorem le_of_getElem?_unmarked {n i : Nat} {flags : List Bool}
    (h : (List.replicate n false ++ flags)[i]? = some true) : n ≤ i ∧ flags[i - n]? = some true := by
  by_cases hle : n ≤ i
  · rw [List.getElem?_append_right (by rwa [List.length_replicate]), List.length_replicate] at h
    exact ⟨hle, h⟩
  · rw [List.getElem?_append_left (by rw [List.length_replicate]; omega),
      List.getElem?_replicate_of_lt (by omega)] at h
    cases h

/-- The blanks of trivia. -/
abbrev Trivia.blanks (trivia : Trivia) : List Bool := blanksOf (trivia.map .piece)

theorem Trivia.length_blanks (t : Trivia) : t.blanks.length = t.text.length := by
  rw [length_blanksOf, Part.textOf_pieces]

/-- Merging pieces makes no character a blank. -/
theorem Trivia.blanks_ofList (pieces : List Piece) : (ofList pieces).blanks = blanks pieces := by
  have hrun : ∀ unit m n, List.replicate (Piece.run unit (m + n)).text.length
        (Part.piece (.run unit (m + n))).isBlank =
      List.replicate (Piece.run unit m).text.length (Part.piece (.run unit m)).isBlank ++
        List.replicate (Piece.run unit n).text.length (Part.piece (.run unit n)).isBlank := by
    intro unit m n
    -- whether a run is blank does not depend on how often its unit is repeated
    have hflag : ∀ k, (Part.piece (.run unit k)).isBlank = (Part.piece (.run unit 0)).isBlank := by
      intro k
      cases unit <;> rfl
    rw [Piece.text_run_add, List.length_append, hflag (m + n), hflag m, hflag n,
      List.replicate_append_replicate]
  rw [blanks, blanks, blanksOf, blanksOf, List.flatMap_map, List.flatMap_map]
  exact flatMap_ofList hrun pieces

-- ---------------------------------------------------------------------------
-- Blanks in a text
-- ---------------------------------------------------------------------------

namespace Indents

variable {w : List Char}

theorem exists_cons (h : Indents w) : ∃ b v, w = b :: v ∧ IsBlank b ∧ ∀ c ∈ v, IsBlank c := by
  obtain ⟨b, v, rfl⟩ := List.exists_cons_of_ne_nil h.ne_nil
  exact ⟨b, v, rfl, h.blank b (List.mem_cons_self ..), fun c hc => h.blank c (List.mem_cons_of_mem _ hc)⟩

theorem exists_concat (h : Indents w) : ∃ v b, w = v ++ [b] ∧ IsBlank b := by
  rcases List.eq_nil_or_concat w with rfl | ⟨v, b, rfl⟩
  · exact absurd rfl h.ne_nil
  · rw [List.concat_eq_append] at h ⊢
    exact ⟨v, b, rfl, h.blank b (by simp)⟩

theorem stops (h : Indents w) (s : List Char) : Stops (w ++ s) := by
  obtain ⟨b, v, rfl, hb, -⟩ := h.exists_cons
  exact .cons hb.mem_stoppers _

end Indents

/-- The unit of the runs that a blank is in. -/
def RunUnit.ofBlank (b : Char) : RunUnit := if b = ' ' then .space else .tab

namespace IsBlank

variable {b : Char}

theorem text_unit (h : IsBlank b) : (RunUnit.ofBlank b).text = [b] := by
  rcases h with rfl | rfl <;> rfl

theorem unit_isBreak (b : Char) : (RunUnit.ofBlank b).isBreak = false := by
  unfold RunUnit.ofBlank
  split <;> rfl

theorem isBlank_run (h : IsBlank b) (n : Nat) : (Part.piece (.run (.ofBlank b) n)).isBlank = true := by
  rcases h with rfl | rfl <;> rfl

theorem ofText?_cons (h : IsBlank b) (text : List Char) :
    RunUnit.ofText? (b :: text) = some (.ofBlank b) := by
  rcases h with rfl | rfl <;> rfl

theorem text_run (h : IsBlank b) (n : Nat) : (Piece.run (.ofBlank b) n).text = List.replicate n b := by
  rw [Piece.text, h.text_unit]
  simp

theorem isLineBreak_eq (h : IsBlank b) : isLineBreak b = false := by
  rcases h with rfl | rfl <;> rfl

end IsBlank

/-- Only a blank starts a run of blanks. -/
theorem GapStart.isBlank_of_piece {trailing atStart : Bool} {text : List Char} {p : Piece}
    (h : ofText trailing atStart text = .piece p) (hp : (Part.piece p).isBlank = true) :
    ∃ b rest, text = b :: rest ∧ IsBlank b := by
  obtain ⟨hne, rest, rfl⟩ := ofText_eq_piece h
  obtain ⟨b, n, hb, rfl⟩ : ∃ b n, IsBlank b ∧ p = .run (.ofBlank b) n := by
    unfold Part.isBlank at hp
    split at hp
    · rename_i n heq
      exact ⟨' ', n, .inl rfl, Part.piece.inj heq⟩
    · rename_i n heq
      exact ⟨'\t', n, .inr rfl, Part.piece.inj heq⟩
    · cases hp
  rw [hb.text_run] at hne ⊢
  cases n with
  | zero => exact absurd rfl hne
  | succ n => exact ⟨b, List.replicate n b ++ rest, rfl, hb⟩

-- ---------------------------------------------------------------------------
-- Gaps over blanks
-- ---------------------------------------------------------------------------

namespace Gap

/-- The blanks of the gap. -/
abbrev blanks (g : Gap) : List Bool := Trivia.blanks g.pieces

theorem length_blanks (g : Gap) : g.blanks.length = g.length := Trivia.length_blanks g.pieces

variable {trailing atStart : Bool}

theorem blanks_of_piece {text : List Char} {p : Piece}
    (h : GapStart.ofText trailing atStart text = .piece p) :
    (ofText trailing atStart text).blanks = List.replicate p.text.length (Part.piece p).isBlank ++
      (ofText trailing false (text.drop p.text.length)).blanks := by
  rw [ofText_of_piece h]
  exact blanksOf_cons ..

theorem length_of_piece {text : List Char} {p : Piece}
    (h : GapStart.ofText trailing atStart text = .piece p) :
    (ofText trailing atStart text).length =
      (ofText trailing false (text.drop p.text.length)).length + p.text.length := by
  rw [ofText_of_piece h, length, Trivia.text_cons, List.length_append, Nat.add_comm]
  rfl

/-- A blank is one more character of the gap. -/
theorem ofText_blank (trailing atStart : Bool) {b : Char} (hb : IsBlank b) (text : List Char) :
    (ofText trailing atStart (b :: text)).blanks = true :: (ofText trailing false text).blanks ∧
      (ofText trailing atStart (b :: text)).openComment = (ofText trailing false text).openComment := by
  have hstart : ∀ (atStart : Bool) {text : List Char}, RunUnit.ofText? text = some (.ofBlank b) →
      GapStart.ofText trailing atStart text =
        .piece (.run (.ofBlank b) ((RunUnit.ofBlank b).count text)) := by
    intro atStart text hunit
    unfold GapStart.ofText
    simp only [hunit, IsBlank.unit_isBreak, Bool.and_false, Bool.false_eq_true, if_false]
  have hlength : ∀ n, (Piece.run (.ofBlank b) n).text.length = n := by
    intro n
    rw [hb.text_run, List.length_replicate]
  have hunit := hb.ofText?_cons text
  have hcount : (RunUnit.ofBlank b).count (b :: text) = (RunUnit.ofBlank b).count text + 1 := by
    rw [RunUnit.count, if_pos hunit, hb.text_unit]
    rfl
  -- the run that the blank starts takes in the run behind it, if there is one
  have hrun : (ofText trailing false text).blanks =
        List.replicate ((RunUnit.ofBlank b).count text) true ++
          (ofText trailing false (text.drop ((RunUnit.ofBlank b).count text))).blanks ∧
      (ofText trailing false text).openComment =
        (ofText trailing false (text.drop ((RunUnit.ofBlank b).count text))).openComment := by
    by_cases hmore : RunUnit.ofText? text = some (.ofBlank b)
    · have hpiece := hstart false hmore
      refine ⟨?_, ?_⟩
      · rw [blanks_of_piece hpiece, hlength, hb.isBlank_run]
      · rw [ofText_of_piece hpiece, hlength]
    · have hzero : (RunUnit.ofBlank b).count text = 0 := by
        rw [RunUnit.count, if_neg hmore]
      rw [hzero]
      exact ⟨rfl, rfl⟩
  have hpiece := hstart atStart hunit
  refine ⟨?_, ?_⟩
  · rw [blanks_of_piece hpiece, hlength, hb.isBlank_run, hrun.1, hcount, List.replicate_succ,
      List.drop_succ_cons, List.cons_append]
  · rw [ofText_of_piece hpiece, hlength, hrun.2, hcount, List.drop_succ_cons]

theorem length_blank (trailing atStart : Bool) {b : Char} (hb : IsBlank b) (text : List Char) :
    (ofText trailing atStart (b :: text)).length = (ofText trailing false text).length + 1 := by
  rw [← length_blanks, (ofText_blank trailing atStart hb text).1, List.length_cons, length_blanks]

theorem ofText_indents {w : List Char} (hw : Indents w) (trailing atStart : Bool) (s : List Char) :
    (ofText trailing atStart (w ++ s)).length = w.length + (ofText trailing false s).length ∧
      (ofText trailing atStart (w ++ s)).openComment = (ofText trailing false s).openComment := by
  have hall : ∀ v : List Char, (∀ c ∈ v, IsBlank c) →
      (ofText trailing false (v ++ s)).length = v.length + (ofText trailing false s).length ∧
        (ofText trailing false (v ++ s)).openComment = (ofText trailing false s).openComment := by
    intro v hv
    induction v with
    | nil => exact ⟨(Nat.zero_add _).symm, rfl⟩
    | cons b v ih =>
      have hb := hv b (List.mem_cons_self ..)
      obtain ⟨hlength, hopen⟩ := ih fun c hc => hv c (List.mem_cons_of_mem _ hc)
      rw [List.cons_append, length_blank trailing false hb, (ofText_blank trailing false hb _).2, hlength,
        hopen]
      exact ⟨by rw [List.length_cons]; omega, rfl⟩
  obtain ⟨b, v, rfl, hb, hv⟩ := hw.exists_cons
  obtain ⟨hlength, hopen⟩ := hall v hv
  rw [List.cons_append, length_blank trailing atStart hb, (ofText_blank trailing atStart hb _).2, hlength,
    hopen]
  exact ⟨by rw [List.length_cons]; omega, rfl⟩

end Gap

-- ---------------------------------------------------------------------------
-- Blanks exchanged
-- ---------------------------------------------------------------------------

/-- Blanks go on with no trivia that starts with no blank, if a comment there ends before them. -/
theorem endsTrivia_indents {atStart : Bool} {text v : List Char} (hv : Indents v)
    (hhead : ∀ b ∈ text.head?, ¬ IsBlank b)
    (hline : ['/', '/'] <+: text ∨ atStart = true ∧ ['#', '!'] <+: text →
      ∃ c ∈ text, isLineBreak c = true)
    (hblock : ∀ rest, text = '/' :: '*' :: rest → ∃ n, Comment.closing? 0 rest = some n)
    (s : List Char) : EndsTrivia atStart text (v ++ s) where
  feed _ := by
    obtain ⟨b, v, rfl, hb, -⟩ := hv.exists_cons
    rcases hb with rfl | rfl <;> simp
  run u hu hu' := by
    obtain ⟨b, v, rfl, hb, -⟩ := hv.exists_cons
    rw [List.cons_append, hb.ofText?_cons] at hu'
    obtain rfl := Option.some.inj hu'
    have hprefix := RunUnit.text_isPrefix_of_ofText? hu
    rw [hb.text_unit] at hprefix
    obtain ⟨rest, rfl⟩ := hprefix
    exact absurd hb (hhead b rfl)
  line h := by
    obtain ⟨c, hc, hbreak⟩ := hline h
    rw [List.takeWhile_append, if_neg]
    intro hlength
    have hall := List.takeWhile_eq_self_iff.mp ((List.takeWhile_prefix _).eq_of_length hlength) c hc
    rw [hbreak] at hall
    cases hall
  block rest h := by
    obtain ⟨n, hn⟩ := hblock rest h
    rw [hn]
    exact Comment.closing?_append hn _

namespace Gap

/-- How far two gaps go of which one holds blanks where the other holds others, or both hold none of
them; `flags` are the characters behind the first gap. -/
inductive Exchanged (r w w' s : List Char) (flags : List Bool) (g g' : Gap) : Prop where
  /-- They end before the blanks. -/
  | before (hle : g.length ≤ r.length) (hlength : g'.length = g.length)
      (hblank : flags[r.length - g.length]? = some true)
  /-- They end at the same place behind the blanks. -/
  | across (k : Nat) (hle : k ≤ s.length) (hlength : g.length = r.length + w.length + k)
      (hlength' : g'.length = r.length + w'.length + k)

variable {w w' r s : List Char} {flags : List Bool} {g g' : Gap}

/-- A piece that both gaps start with. -/
theorem Exchanged.behind {r' : List Char} {h h' : Gap} (hgap : Exchanged r' w w' s flags h h') (n : Nat)
    (hr : r.length = r'.length + n) (hg : g.length = h.length + n) (hg' : g'.length = h'.length + n) :
    Exchanged r w w' s flags g g' := by
  cases hgap with
  | before hle hlength hblank =>
    refine .before (by omega) (by omega) ?_
    rwa [hr, hg, Nat.add_sub_add_right]
  | across k hle hlength hlength' => exact .across k hle (by omega) (by omega)

/-- What starts before the blanks, and not with one, starts so whatever the blanks are. -/
private theorem start_exchange (hw : Indents w) (hw' : Indents w') {trailing atStart : Bool} (hr : r ≠ [])
    (hhead : ∀ b ∈ r.head?, ¬ IsBlank b)
    (hopen : GapStart.ofText trailing atStart (r ++ (w ++ s)) ≠ .openComment)
    (hpiece : ∀ p, GapStart.ofText trailing atStart (r ++ (w ++ s)) = .piece p →
      p.text.length ≤ r.length) :
    GapStart.ofText trailing atStart (r ++ (w' ++ s)) =
      GapStart.ofText trailing atStart (r ++ (w ++ s)) := by
  have hline : ['/', '/'] <+: r ∨ atStart = true ∧ ['#', '!'] <+: r →
      ∃ c ∈ r, isLineBreak c = true := by
    intro hmarks
    have hle : ((r ++ (w ++ s)).takeWhile fun c => !isLineBreak c).length ≤ r.length := by
      rcases hmarks with ⟨rest, rfl⟩ | ⟨rfl, rest, rfl⟩
      · exact hpiece _ rfl
      · exact hpiece _ rfl
    by_contra hnone
    -- a comment that goes on takes in the first blank at least
    have hall : r.takeWhile (fun c => !isLineBreak c) = r := by
      refine List.takeWhile_eq_self_iff.mpr fun c hc => ?_
      rw [Bool.not_eq_true', Bool.eq_false_iff]
      exact fun hbreak => hnone ⟨c, hc, hbreak⟩
    obtain ⟨b, v, rfl, hb, -⟩ := hw.exists_cons
    rw [List.takeWhile_append, if_pos (by rw [hall]), List.cons_append, List.takeWhile_cons,
      hb.isLineBreak_eq, Bool.not_false, if_pos rfl, List.length_append, List.length_cons] at hle
    omega
  have hblock : ∀ rest, r = '/' :: '*' :: rest → ∃ n, Comment.closing? 0 rest = some n := by
    rintro rest rfl
    have hstart : GapStart.ofText trailing atStart ('/' :: '*' :: rest ++ (w ++ s)) = _ :=
      GapStart.ofText_of_block (rest ++ (w ++ s))
    cases hlength : Comment.closing? 0 (rest ++ (w ++ s)) with
    | none =>
      rw [hlength] at hstart
      exact absurd hstart hopen
    | some n =>
      rw [hlength] at hstart
      have hle := hpiece _ hstart
      have hbound := Comment.closing?_le hlength
      rw [Piece.text, List.length_take_of_le (by simpa using hbound)] at hle
      exact ⟨n, Comment.closing?_of_append hlength (by simpa using hle)⟩
  rw [GapStart.ofText_append_stop (hw'.stops s) hr (endsTrivia_indents hw' hhead hline hblock s),
    GapStart.ofText_append_stop (hw.stops s) hr (endsTrivia_indents hw hhead hline hblock s)]

/-- A piece that starts with no blank ends before blanks of trivia. -/
private theorem piece_before_blank {trailing atStart : Bool} {c : Char} {x : List Char} {p : Piece}
    (hc : ¬ IsBlank c) (hp : GapStart.ofText trailing atStart (c :: r ++ x) = .piece p)
    (hblank : ((ofText trailing atStart (c :: r ++ x)).blanks ++ flags)[(c :: r).length]? = some true) :
    p.text.length ≤ (c :: r).length ∧
      ((ofText trailing false ((c :: r).drop p.text.length ++ x)).blanks ++
        flags)[((c :: r).drop p.text.length).length]? = some true := by
  have hplain : (Part.piece p).isBlank = false := by
    refine Bool.eq_false_iff.mpr fun hblank => ?_
    obtain ⟨b, rest, htext, hb⟩ := GapStart.isBlank_of_piece hp hblank
    obtain ⟨rfl, -⟩ := List.cons.inj htext
    exact hc hb
  rw [blanks_of_piece hp, hplain, List.append_assoc] at hblank
  obtain ⟨hle, hlater⟩ := le_of_getElem?_unmarked hblank
  rw [List.drop_append_of_le_length hle] at hlater
  exact ⟨hle, by rwa [List.length_drop]⟩

/-- Blanks of trivia can be exchanged. -/
theorem exchange (hw : Indents w) (hw' : Indents w') (trailing atStart : Bool)
    (hopen : (ofText trailing atStart (r ++ (w ++ s))).openComment = false)
    (hblank : ((ofText trailing atStart (r ++ (w ++ s))).blanks ++ flags)[r.length]? = some true) :
    (ofText trailing atStart (r ++ (w' ++ s))).openComment = false ∧
      Exchanged r w w' s flags (ofText trailing atStart (r ++ (w ++ s)))
        (ofText trailing atStart (r ++ (w' ++ s))) := by
  induction hn : r.length using Nat.strongRecOn generalizing atStart r with
  | ind n ih =>
    subst hn
    cases r with
    | nil =>
      -- the gap goes on over the blanks
      obtain ⟨hlength, hsame⟩ := ofText_indents hw trailing atStart s
      obtain ⟨hlength', hsame'⟩ := ofText_indents hw' trailing atStart s
      rw [List.nil_append] at hopen ⊢
      rw [List.nil_append, hsame', ← hsame, hopen]
      have hle := (text_isPrefix trailing false s).length_le
      exact ⟨rfl, .across (ofText trailing false s).length hle (by simp [hlength]) (by simp [hlength'])⟩
    | cons c r =>
      by_cases hc : IsBlank c
      · rw [List.cons_append] at hopen hblank ⊢
        rw [List.cons_append]
        obtain ⟨hflags, hsame⟩ := ofText_blank trailing atStart hc (r ++ (w ++ s))
        rw [hsame] at hopen
        rw [hflags, List.cons_append, List.length_cons, List.getElem?_cons_succ] at hblank
        obtain ⟨hclosed, hexchange⟩ := ih r.length (Nat.lt_succ_self _) false hopen hblank rfl
        refine ⟨?_, hexchange.behind 1 rfl (length_blank _ _ hc _) (length_blank _ _ hc _)⟩
        rw [(ofText_blank trailing atStart hc _).2, hclosed]
      · have hsame : GapStart.ofText trailing atStart (c :: r ++ (w' ++ s)) =
            GapStart.ofText trailing atStart (c :: r ++ (w ++ s)) :=
          start_exchange hw hw' (List.cons_ne_nil c r) (by simpa using hc)
            (fun hstart => by rw [ofText_of_openComment hstart] at hopen; cases hopen)
            fun p hp => (piece_before_blank hc hp hblank).1
        cases hstart : GapStart.ofText trailing atStart (c :: r ++ (w ++ s)) with
        | nothing =>
          rw [ofText_of_nothing (hsame.trans hstart)]
          rw [ofText_of_nothing hstart] at hblank ⊢
          exact ⟨rfl, .before (Nat.zero_le _) rfl hblank⟩
        | openComment =>
          rw [ofText_of_openComment hstart] at hopen
          cases hopen
        | piece p =>
          -- both gaps go on behind the piece, before the blanks
          have hstart' := hsame.trans hstart
          obtain ⟨hle, hlater⟩ := piece_before_blank hc hstart hblank
          have hpos := List.length_pos_iff.mpr (GapStart.ofText_eq_piece hstart).1
          have hshort : ((c :: r).drop p.text.length).length + p.text.length = (c :: r).length := by
            rw [List.length_drop]
            omega
          have hdrop : ∀ v : List Char, (c :: r ++ (v ++ s)).drop p.text.length =
              (c :: r).drop p.text.length ++ (v ++ s) := fun v => List.drop_append_of_le_length hle
          have hlength := length_of_piece hstart
          have hlength' := length_of_piece hstart'
          rw [hdrop] at hlength hlength'
          rw [ofText_of_piece hstart, hdrop] at hopen
          obtain ⟨hclosed, hexchange⟩ := ih _ (by omega) false hopen hlater rfl
          refine ⟨?_, hexchange.behind p.text.length hshort.symm hlength hlength'⟩
          rw [ofText_of_piece hstart', hdrop]
          exact hclosed

end Gap

end SwiftColoring
