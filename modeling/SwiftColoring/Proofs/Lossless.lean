import Mathlib.Data.List.Chain
import SwiftColoring.Proofs.Calls

/-!
# Nothing is lost

Every token that a call hands out is the stretch of source that the call passes, trivia included,
and its places are those of its text, counted afresh. This holds for any number of calls, those
after a failure and after the end of the source included. The tokens of a source therefore lie end
to end from its first byte to its last.

* `Lexer.Cut.standsBehind` — one call: places are counted from where the call starts.
* `Lexer.Reads.standInTurn` — calls in a row: each token stands behind the ones before it.
* `lexer_loses_nothing` — the whole statement.
-/

namespace SwiftColoring

-- ---------------------------------------------------------------------------
-- A token in its place
-- ---------------------------------------------------------------------------

/-- The token stands directly behind the text that a source starts with: its own text starts where
its leading trivia ends. -/
structure Token.StandsBehind (passed : List Char) (t : Token) : Prop where
  start_eq : t.span.start = Pos.behind (passed ++ t.leading.text)
  stop_eq : t.span.stop = Pos.behind (passed ++ t.leading.text ++ t.text)

namespace Token.StandsBehind

variable {passed : List Char} {t : Token}

/-- The text of a token starts behind all that precedes it and its leading trivia. -/
theorem start_offset (h : t.StandsBehind passed) :
    t.span.start.offset = byteLength passed + t.leading.byteSize := by
  rw [h.start_eq, Pos.behind_offset, byteLength_append, Trivia.byteSize_eq]

/-- It ends as many bytes later as it has. -/
theorem stop_offset (h : t.StandsBehind passed) :
    t.span.stop.offset = byteLength passed + t.leading.byteSize + byteLength t.text := by
  rw [h.stop_eq, Pos.behind_offset, byteLength_append, byteLength_append, Trivia.byteSize_eq]

/-- The leading trivia of a token starts where what precedes it ends. -/
theorem fullStart_eq (h : t.StandsBehind passed) : t.fullStart = byteLength passed := by
  rw [Token.fullStart, h.start_offset, Nat.add_sub_cancel]

/-- A token ends with its trailing trivia. -/
theorem fullStop_eq (h : t.StandsBehind passed) :
    t.fullStop = byteLength (passed ++ t.fullText) := by
  rw [Token.fullStop, h.stop_offset, Token.fullText, byteLength_append, byteLength_append,
    byteLength_append, Trivia.byteSize_eq, Trivia.byteSize_eq]
  omega

end Token.StandsBehind

/-- The token fills the stretch of source between two indexes: its text and trivia are the
characters of the stretch, and its places are exact. -/
structure Token.Fills (source : List Char) (first last : Nat) (t : Token) : Prop where
  first_le : first ≤ last
  last_le : last ≤ source.length
  fullText_eq : t.fullText = (source.take last).drop first
  /-- The size of the leading trivia can be taken from the offset of the text. -/
  leading_le : t.leading.byteSize ≤ t.span.start.offset
  fullStart_eq : t.fullStart = byteLength (source.take first)
  fullStop_eq : t.fullStop = byteLength (source.take last)
  start_eq : t.span.start = Pos.behind (source.take (first + t.leading.text.length))
  stop_eq : t.span.stop =
    Pos.behind (source.take (first + t.leading.text.length + t.text.length))

-- ---------------------------------------------------------------------------
-- One call
-- ---------------------------------------------------------------------------

namespace Lexer

variable {source : List Char} {l behind here : Lexer} {t : Token} {x : Lexeme}

/-- The token of a call stands behind all that was passed before the call. -/
theorem Cut.standsBehind (h : Cut l t behind here x) (hl : l.toCursor.IsIn source) :
    t.StandsBehind (source.take l.index) where
  start_eq := by
    rw [h.span_start, hl.pos_eq_behind, ← Pos.after_origin, ← Pos.after_append, Pos.after_origin]
  stop_eq := by
    rw [h.span_stop, hl.pos_eq_behind, ← Pos.after_origin, ← Pos.after_append, Pos.after_origin,
      List.append_assoc]

/-- A call passes what its token holds. -/
theorem Cut.index_eq (h : Cut l t behind here x) : behind.index = l.index + t.fullText.length := by
  rw [h.toCursor_eq, Cursor.advance_index, h.rest_eq, List.take_left]

/-- What has been passed behind the call is what had been passed before it, and the token. -/
theorem Cut.take_index (h : Cut l t behind here x) (hl : l.toCursor.IsIn source) :
    source.take behind.index = source.take l.index ++ t.fullText := by
  rw [h.index_eq, List.take_add, hl.drop_index, h.rest_eq, List.take_left]

/-- The token of a call fills the stretch that the call passes. -/
theorem Cut.fills (h : Cut l t behind here x) (hl : l.toCursor.IsIn source) :
    t.Fills source l.index behind.index := by
  have hstands := h.standsBehind hl
  have hbehind : behind.toCursor.IsIn source := by
    rw [h.toCursor_eq]
    exact hl.advance _
  have hlength : (source.take l.index).length = l.index := by
    rw [List.length_take, Nat.min_eq_left hl.index_le]
  -- what starts the rest of the source starts behind the index
  have htake : ∀ text rest : List Char, l.rest = text ++ rest →
      source.take (l.index + text.length) = source.take l.index ++ text := by
    intro text rest hrest
    rw [List.take_add, hl.drop_index, hrest, List.take_left]
  have hrest : l.rest = t.leading.text ++ (t.text ++ (t.trailing.text ++ behind.rest)) := by
    rw [h.rest_eq, Token.fullText]
    simp only [List.append_assoc]
  constructor
  case first_le =>
    rw [h.index_eq]
    exact Nat.le_add_right ..
  case last_le => exact hbehind.index_le
  case fullText_eq =>
    rw [h.take_index hl]
    exact (List.drop_left' hlength).symm
  case leading_le =>
    rw [hstands.start_offset]
    exact Nat.le_add_left ..
  case fullStart_eq => exact hstands.fullStart_eq
  case fullStop_eq => rw [hstands.fullStop_eq, h.take_index hl]
  case start_eq => rw [htake _ _ hrest, hstands.start_eq]
  case stop_eq =>
    have hrest' : l.rest = (t.leading.text ++ t.text) ++ (t.trailing.text ++ behind.rest) := by
      rw [hrest, List.append_assoc]
    rw [Nat.add_assoc, ← List.length_append, htake _ _ hrest', hstands.stop_eq, List.append_assoc]

end Lexer

-- ---------------------------------------------------------------------------
-- Calls in a row
-- ---------------------------------------------------------------------------

/-- Tokens that stand one behind the other, the first of them behind the text. -/
def StandInTurn : List Char → List Token → Prop
  | _, [] => True
  | passed, t :: ts => t.StandsBehind passed ∧ StandInTurn (passed ++ t.fullText) ts

namespace StandInTurn

/-- Tokens stand in turn iff the first of them do, and the others do behind those. -/
theorem append_iff {passed : List Char} {ts us : List Token} :
    StandInTurn passed (ts ++ us) ↔
      StandInTurn passed ts ∧ StandInTurn (passed ++ ts.flatMap Token.fullText) us := by
  induction ts generalizing passed with
  | nil =>
    rw [List.nil_append, List.flatMap_nil, List.append_nil]
    exact ⟨fun h => ⟨trivial, h⟩, fun h => h.2⟩
  | cons t ts ih =>
    rw [List.cons_append, List.flatMap_cons, ← List.append_assoc]
    show _ ∧ _ ↔ (_ ∧ _) ∧ _
    rw [ih, and_assoc]

theorem concat {passed : List Char} {ts : List Token} {t : Token} (h : StandInTurn passed ts)
    (ht : t.StandsBehind (passed ++ ts.flatMap Token.fullText)) : StandInTurn passed (ts ++ [t]) :=
  append_iff.mpr ⟨h, ht, trivial⟩

/-- The first token starts where the text before it ends. -/
theorem head_fullStart {passed : List Char} {ts : List Token} (h : StandInTurn passed ts) :
    ∀ t ∈ ts.head?, t.fullStart = byteLength passed := by
  intro t ht
  cases ts with
  | nil => cases ht
  | cons u ts =>
    obtain rfl := Option.some.inj ht
    exact h.1.fullStart_eq

/-- Each token ends where the next one starts. -/
theorem isChain {passed : List Char} {ts : List Token} (h : StandInTurn passed ts) :
    ts.IsChain fun t u => t.fullStop = u.fullStart := by
  induction ts generalizing passed with
  | nil => exact List.isChain_nil
  | cons t ts ih =>
    refine (ih h.2).cons fun u hu => ?_
    rw [h.1.fullStop_eq, h.2.head_fullStart u hu]

end StandInTurn

namespace Lexer

variable {source : List Char}

/-- The tokens of calls in a row stand in turn, and are what was passed. -/
theorem Reads.standInTurn {m : Lexer} {ts : List Token} (h : (ofText source).Reads ts m) :
    StandInTurn [] ts ∧ source.take m.index = ts.flatMap Token.fullText := by
  induction h with
  | nil => exact ⟨trivial, rfl⟩
  | @snoc ts m behind t hreads hnext hkind ih =>
    obtain ⟨hturn, htake⟩ := ih
    obtain ⟨here, x, hcut⟩ := next_cut hnext
    have hm : m.toCursor.IsIn source := hreads.isIn (Cursor.isIn_ofText source)
    constructor
    · refine hturn.concat ?_
      rw [List.nil_append, ← htake]
      exact hcut.standsBehind hm
    · rw [hcut.take_index hm, htake, List.flatMap_append, List.flatMap_singleton]

theorem afterCalls_succ (n : Nat) (l : Lexer) :
    afterCalls (n + 1) l = (afterCalls n l).next.2 := by
  induction n generalizing l with
  | zero => rfl
  | succ n ih => exact ih l.next.2

end Lexer

/-- The tokens of a source stand one behind the other from its start, and together they are the
source. -/
theorem standInTurn_of_tokens {source : List Char} {ts : List Token} (h : tokens source = .ok ts) :
    StandInTurn [] ts ∧ ts.flatMap Token.fullText = source := by
  obtain ⟨init, eof, m, behind, rfl, hreads, hnext, hkind⟩ := Lexer.exists_reads_of_tokens h
  obtain ⟨hturn, htake⟩ := hreads.standInTurn
  obtain ⟨here, x, hcut⟩ := Lexer.next_cut hnext
  have hm : m.toCursor.IsIn source := hreads.isIn (Cursor.isIn_ofText source)
  constructor
  · refine hturn.concat ?_
    rw [List.nil_append, ← htake]
    exact hcut.standsBehind hm
  · -- the last call passes whatever the others have left
    have hrest : m.rest = eof.fullText := by
      rw [hcut.rest_eq, hcut.rest_of_eof hkind, List.append_nil]
    rw [List.flatMap_append, List.flatMap_singleton, ← htake, ← hrest, ← hm.drop_index,
      List.take_append_drop]

/-- **Nothing is lost, doubled or moved.** Whatever the source and however many calls came before, a
token handed out fills the stretch that its call passes, with exact places. The tokens of a source
therefore lie end to end from its first byte to its last, and exactly the last of them ends it. -/
theorem lexer_loses_nothing (source : List Char) :
    (∀ (n : Nat) (t : Token), ((Lexer.ofText source).afterCalls n).next.1 = .ok t →
      t.Fills source ((Lexer.ofText source).afterCalls n).index
        ((Lexer.ofText source).afterCalls (n + 1)).index) ∧
    (∀ ts : List Token, tokens source = .ok ts →
      ts.flatMap Token.fullText = source ∧
      ts.head?.map Token.fullStart = some 0 ∧
      ts.IsChain (fun t u => t.fullStop = u.fullStart) ∧
      ts.getLast?.map Token.fullStop = some (byteLength source) ∧
      ∃ init eof, ts = init ++ [eof] ∧ eof.kind = .eof ∧ ∀ t ∈ init, t.kind ≠ .eof) := by
  constructor
  · intro n t h
    obtain ⟨here, x, hcut⟩ := Lexer.next_cut (Prod.ext h rfl)
    rw [Lexer.afterCalls_succ]
    exact hcut.fills (Lexer.afterCalls_isIn (Cursor.isIn_ofText source) n)
  · intro ts h
    obtain ⟨hturn, hflat⟩ := standInTurn_of_tokens h
    obtain ⟨init, eof, m, behind, rfl, hreads, -, hkind⟩ := Lexer.exists_reads_of_tokens h
    refine ⟨hflat, ?_, hturn.isChain, ?_, init, eof, rfl, hkind, hreads.kind_ne_eof⟩
    · cases hhead : (init ++ [eof]).head? with
      | none => simp at hhead
      | some t => exact congrArg some (hturn.head_fullStart t hhead)
    · have heof := (StandInTurn.append_iff.mp hturn).2.1.fullStop_eq
      rw [List.flatMap_append, List.flatMap_singleton] at hflat
      rw [List.nil_append, hflat] at heof
      rw [List.getLast?_concat, Option.map_some, heof]

/-- A character of two bytes, a line break of two characters, and a literal that holds a null
character. -/
theorem lexer_loses_nothing_null :
    ∃ ts, tokens "é\r\n\"\x00\"".toList = .ok ts ∧
      ts.map Token.fullStart = [0, 2, 5, 6, 7] ∧
      ts.flatMap Token.fullText = "é\r\n\"\x00\"".toList := by
  have hstarts : (tokens "é\r\n\"\x00\"".toList).toOption.map (List.map Token.fullStart) =
      some [0, 2, 5, 6, 7] := by
    decide +kernel
  obtain ⟨ts, hts, hstarts⟩ := exists_ok_of_toOption_map hstarts
  exact ⟨ts, hts, hstarts, ((lexer_loses_nothing _).2 ts hts).1⟩

end SwiftColoring
