import SwiftColoring.Proofs.Failing

/-!
# Calls come to rest

Nothing bounds the number of calls for the next token, and a failure does not end them. Still they
lead nowhere in the end: a call that does not move the lexer on leaves it where it is, and then all
later calls answer alike. A source of `n` characters can be moved over `n` times at most, so that
from the call behind `n` others on there is one answer, the end of the source or one failure.

* `Lexer.Resting` — a lexer that calls do not move, and what they answer.
* `Lexer.InOrder.progress` — a call moves a lexer on, or the lexer rests.
* `Lexer.resting_of_openLiteral` — behind a literal that does not end, a lexer rests.
* `calls_come_to_rest` — the whole statement.
-/

namespace SwiftColoring

namespace Lexer

variable {source : List Char} {l behind : Lexer} {answer : Except Failure Token} {failure : Failure}
  {t : Token}

-- ---------------------------------------------------------------------------
-- A lexer at rest
-- ---------------------------------------------------------------------------

/-- Calls find nothing to pass and answer so. -/
inductive Resting (l : Lexer) : Except Failure Token → Prop where
  /-- The search for a lexeme fails at once. -/
  | failed {stop : Interruption} (hleading : l.takeLeading = (.ok [], l)) (hstop : l.lexeme = .error stop)
      (hlength : stop.length = 0) : Resting l (.error stop.failure)
  /-- The source has ended, and no literal is open. -/
  | ended (hcontext : l.context = .code) (hrest : l.rest = []) :
      Resting l (.ok ⟨.eof, [], .point l.pos, [], []⟩)

theorem takeLeading_of_rest_nil (h : l.rest = []) : l.takeLeading = (.ok [], l) := by
  unfold takeLeading
  split
  · exact takeGap_of_nothing (by rw [h]; rfl)
  · rfl

private theorem advance_zero (l : Lexer) : l.advance 0 = l :=
  congrArg (fun c => { l with toCursor := c }) l.toCursor.advance_zero

theorem next_of_ended (hcontext : l.context = .code) (hrest : l.rest = []) :
    l.next = (.ok ⟨.eof, [], .point l.pos, [], []⟩, l.accept (l.plain .eof 0)) := by
  exact next_ok_iff.mpr ⟨[], l, _, [], takeLeading_of_rest_nil hrest, lexeme_of_ended hcontext hrest,
    by simp [takeTrailing, plain], by rw [hrest]; rfl⟩

theorem next_of_failed {stop : Interruption} (hleading : l.takeLeading = (.ok [], l))
    (hstop : l.lexeme = .error stop) : l.next = (.error stop.failure, l.advance stop.length) := by
  unfold next
  simp only [hleading, hstop]

/-- A call leaves a resting lexer where it is. -/
theorem Resting.step (h : l.Resting answer) :
    l.next.1 = answer ∧ l.next.2.toCursor = l.toCursor ∧ l.next.2.contexts = l.contexts ∧
      l.next.2.Resting answer := by
  cases h with
  | failed hleading hstop hlength =>
    rw [next_of_failed hleading hstop, hlength, advance_zero]
    exact ⟨rfl, rfl, rfl, .failed hleading hstop hlength⟩
  | ended hcontext hrest =>
    rw [next_of_ended hcontext hrest]
    exact ⟨rfl, l.toCursor.advance_zero, rfl, .ended hcontext hrest⟩

theorem Resting.afterCalls (h : l.Resting answer) (n : Nat) : (afterCalls n l).Resting answer := by
  induction n generalizing l with
  | zero => exact h
  | succ n ih => exact ih h.step.2.2.2

-- ---------------------------------------------------------------------------
-- One call
-- ---------------------------------------------------------------------------

theorem index_le_advance (l : Lexer) (n : Nat) : l.index ≤ (l.advance n).index := Nat.le_add_right ..

theorem index_lt_advance {n : Nat} (hrest : l.rest ≠ []) (hn : 0 < n) :
    l.index < (l.advance n).index := by
  have hlen := List.length_pos_iff.mpr hrest
  rw [advance_toCursor, Cursor.advance_index, List.length_take]
  omega

theorem MeetsOpenComment.index_lt {here : Lexer} {trailing : Bool} (h : l.MeetsOpenComment trailing here) :
    l.index < (here.advance here.rest.length).index := by
  obtain ⟨rest, hrest, -⟩ := h.rest_eq
  refine Nat.lt_of_le_of_lt ?_ (index_lt_advance (by simp [hrest]) (by simp [hrest]))
  rw [h.eq_advance]
  exact l.index_le_advance _

/-- Trivia that is found moves the lexer on. -/
theorem takeLeading_index {here : Lexer} {leading : Trivia} (h : l.takeLeading = (.ok leading, here)) :
    l.index < here.index ∨ (leading = [] ∧ here = l) := by
  have hpasses := (takeLeading_ok h).1
  cases leading with
  | nil => exact .inr ⟨rfl, hpasses.eq_advance.trans (advance_zero l)⟩
  | cons p leading =>
    have hp : p.text ≠ [] := hpasses.text_ne_nil p (List.mem_cons_self ..)
    have hpos := List.length_pos_iff.mpr hp
    have hle := hpasses.text_isPrefix.length_le
    rw [Trivia.text_cons, List.length_append] at hle
    left
    rw [hpasses.eq_advance]
    refine index_lt_advance ?_ (by rw [Trivia.text_cons, List.length_append]; omega)
    intro hnil
    rw [hnil, List.length_nil] at hle
    omega

/-- A call moves a lexer on, or the lexer rests. -/
theorem InOrder.progress (h : l.InOrder source) :
    l.index < l.next.2.index ∨ ∃ answer, l.Resting answer := by
  generalize hnext : l.next = result
  obtain ⟨answer | t, behind⟩ := result
  · -- where trivia fails, the comment is passed
    cases callFails_next hnext with
    | leading hmeets => exact .inl hmeets.index_lt
    | trailing hleading hx hkind hmeets =>
      refine .inl (Nat.lt_of_le_of_lt ?_ hmeets.index_lt)
      obtain ⟨m, hm⟩ := l.takeLeading_advance
      rw [hleading] at hm
      obtain rfl := hm
      exact Nat.le_trans (l.index_le_advance m) (index_le_advance _ _)
    | @lexeme leading here stop hleading hstop =>
      have hle := here.index_le_advance stop.length
      rcases takeLeading_index hleading with hlt | ⟨rfl, rfl⟩
      · exact .inl (Nat.lt_of_lt_of_le hlt hle)
      rcases Nat.eq_zero_or_pos stop.length with hzero | hpos
      · exact .inr ⟨_, .failed hleading hstop hzero⟩
      · refine .inl (index_lt_advance (fun hnil => ?_) hpos)
        have hstay := stop_length_le hstop
        rw [hnil, List.length_nil] at hstay
        omega
  · obtain ⟨leading, here, x, trailing, hleading, hx, htrailing, rfl⟩ := next_ok_iff.mp hnext
    obtain ⟨n, hn⟩ := (here.accept x).takeTrailing_advance x.kind
    rw [htrailing] at hn
    obtain rfl : behind = (here.accept x).advance n := hn
    have hle : (here.advance x.length).index ≤ ((here.accept x).advance n).index :=
      (here.accept x).index_le_advance n
    by_cases hkind : x.kind = .eof
    · rcases takeLeading_index hleading with hlt | ⟨rfl, rfl⟩
      · exact .inl (Nat.lt_of_lt_of_le hlt (Nat.le_trans (here.index_le_advance _) hle))
      · obtain ⟨hcontext, hrest⟩ := at_end_of_kind_eof hx hkind
        exact .inr ⟨_, .ended hcontext hrest⟩
    · obtain ⟨hrest, hpos⟩ := (h.takeLeading hleading).rest_ne_nil hx hkind
      have hlt := Nat.lt_of_lt_of_le (index_lt_advance hrest hpos) hle
      rcases takeLeading_index hleading with hlt' | ⟨-, rfl⟩
      · exact .inl (Nat.lt_trans hlt' hlt)
      · exact .inl hlt

/-- The text of a token other than the end of the source is not empty. -/
theorem InOrder.text_ne_nil (h : l.InOrder source) (hnext : l.next = (.ok t, behind))
    (hkind : t.kind ≠ .eof) : t.text ≠ [] := by
  obtain ⟨leading, here, x, trailing, hleading, hx, -, rfl⟩ := next_ok_iff.mp hnext
  obtain ⟨hrest, hpos⟩ := (h.takeLeading hleading).rest_ne_nil hx hkind
  intro hnil
  rcases List.take_eq_nil_iff.mp hnil with hzero | hnone
  · exact absurd hzero (Nat.ne_of_gt hpos)
  · exact hrest hnone

/-- Behind the end of the source, a lexer rests. -/
theorem resting_of_eof (hnext : l.next = (.ok t, behind)) (hkind : t.kind = .eof) :
    behind.Resting (.ok ⟨.eof, [], .point behind.pos, [], []⟩) := by
  obtain ⟨here, x, hcut⟩ := next_cut hnext
  obtain ⟨hcontext, hrest⟩ := at_end_of_kind_eof hcut.lexeme_eq (hcut.kind_eq.symm.trans hkind)
  have hx : here.plain .eof 0 = x :=
    Except.ok.inj ((lexeme_of_ended hcontext hrest).symm.trans hcut.lexeme_eq)
  have hcontexts : behind.contexts = here.contexts := by
    rw [hcut.behind_contexts, ← hx]
    rfl
  exact .ended ((congrArg Context.innermost hcontexts).trans hcontext) (hcut.rest_of_eof hkind)

end Lexer

-- ---------------------------------------------------------------------------
-- Literals that do not end
-- ---------------------------------------------------------------------------

/-- The failure is that of a literal or an interpolation that does not end. -/
def Failure.isOpenLiteral : Failure → Bool
  | .openString _ | .openInterpolation _ => true
  | _ => false

/-- Text that does not end is given up where nothing is left, or before a break. -/
theorem StringText.extent_of_not_closed {multiline : Bool} {text : List Char}
    (h : (extent multiline text).closed = false) :
    text.drop (extent multiline text).length = [] ∨ ∃ c rest, multiline = false ∧ isLineBreak c = true ∧
      text.drop (extent multiline text).length = c :: rest := by
  fun_induction extent multiline text with
  | case1 | case2 => exact .inl rfl
  | case3 | case6 => cases h
  | case4 c rest _ hbreak | case7 c rest _ _ _ hbreak =>
    rw [Bool.and_eq_true, Bool.not_eq_true'] at hbreak
    exact .inr ⟨c, rest, hbreak.1, hbreak.2, rfl⟩
  | case5 c rest _ _ ih | case8 c rest _ _ _ _ ih => exact ih h

namespace Lexer

variable {source : List Char} {l behind : Lexer} {failure : Failure} {t : Token}

/-- Where text was given up, it is given up again at once. -/
private theorem stringPart_again {multiline : Bool} {opening : Pos}
    (hclosed : (StringText.extent multiline l.rest).closed = false) :
    (l.advance (StringText.extent multiline l.rest).length).stringPart multiline opening =
      .error ⟨.openString opening, 0⟩ := by
  unfold stringPart
  rw [advance_toCursor, Cursor.advance_rest]
  rcases StringText.extent_of_not_closed hclosed with hnil | ⟨c, rest, rfl, hbreak, hcons⟩
  · rw [hnil]
    cases multiline <;> rfl
  · rw [hcons]
    simp only [isLineBreak, Bool.or_eq_true, beq_iff_eq] at hbreak
    rcases hbreak with rfl | rfl <;> rfl

/-- Behind a literal or an interpolation that does not end, a lexer rests, and fails alike. -/
theorem resting_of_openLiteral (hnext : l.next = (.error failure, behind))
    (hfailure : failure.isOpenLiteral = true) : behind.Resting (.error failure) := by
  cases callFails_next hnext with
  | leading | trailing => cases hfailure
  | @lexeme leading here stop hleading hstop =>
    cases finds_of_interruption hstop with
    | openRawString => cases hfailure
    | openInterpolation hcontext hrest =>
      rw [advance_zero]
      exact .failed (takeLeading_of_rest_nil hrest) hstop rfl
    | @openString multiline opening hcontext hquote hopen hclosed =>
      set behind := here.advance (StringText.extent multiline here.rest).length
      have hcontext' : behind.context = .string multiline opening := hcontext
      have hleading' : behind.takeLeading = (.ok [], behind) := by
        unfold takeLeading
        rw [hcontext']
        rfl
      have hstop' : behind.lexeme = .error ⟨.openString opening, 0⟩ := by
        unfold lexeme
        rw [hcontext']
        exact stringPart_again hclosed
      show behind.Resting (.error (Interruption.failure ⟨.openString opening, 0⟩))
      exact .failed hleading' hstop' rfl

-- ---------------------------------------------------------------------------
-- Calls in a row
-- ---------------------------------------------------------------------------

theorem afterCalls_add (m n : Nat) (l : Lexer) :
    afterCalls (m + n) l = afterCalls n (afterCalls m l) := by
  induction n with
  | zero => rfl
  | succ n ih => rw [← Nat.add_assoc, afterCalls_succ, afterCalls_succ, ih]

/-- What a lexer answers to the call behind a number of others. -/
def answer (l : Lexer) (n : Nat) : Except Failure Token := (afterCalls n l).next.1

/-- A lexer at rest answers all later calls alike. -/
theorem answer_of_resting {a : Except Failure Token} {m n : Nat} (h : (afterCalls m l).Resting a)
    (hle : m ≤ n) : l.answer n = a := by
  obtain ⟨k, rfl⟩ := Nat.exists_eq_add_of_le hle
  unfold answer
  rw [afterCalls_add]
  exact (h.afterCalls k).step.1

/-- A call hands out the end of the source, or leaves open whether it was handed out. -/
theorem finished_next (l : Lexer) :
    l.next.2.finished = true ↔ l.finished = true ∨ ∃ t, l.next.1 = .ok t ∧ t.kind = .eof := by
  generalize hnext : l.next = result
  obtain ⟨failure | t, behind⟩ := result
  · have hsame : behind.finished = l.finished := by
      cases callFails_next hnext with
      | leading hmeets => rw [advance_finished, hmeets.eq_advance, advance_finished]
      | lexeme hleading => rw [advance_finished, (takeLeading_ok hleading).1.eq_advance, advance_finished]
      | @trailing leading here behind x hleading _ hkind hmeets =>
        rw [advance_finished, hmeets.eq_advance, advance_finished]
        show (here.finished || x.kind == .eof) = l.finished
        rw [beq_false_of_ne hkind, Bool.or_false, (takeLeading_ok hleading).1.eq_advance,
          advance_finished]
    rw [hsame]
    exact ⟨.inl, fun h => h.resolve_right (by rintro ⟨_, ht, -⟩; cases ht)⟩
  · obtain ⟨here, x, hcut⟩ := next_cut hnext
    simp only [hcut.behind_finished, Bool.or_eq_true, beq_iff_eq, Except.ok.injEq, exists_eq_left']

theorem finished_afterCalls (hl : l.finished = false) (n : Nat) :
    (afterCalls n l).finished = true ↔ ∃ k < n, ∃ t, l.answer k = .ok t ∧ t.kind = .eof := by
  induction n with
  | zero => simp [afterCalls, hl]
  | succ n ih =>
    rw [afterCalls_succ, finished_next, ih]
    simp only [Nat.lt_succ_iff_lt_or_eq, or_and_right, exists_or, exists_eq_left]
    rfl

/-- As many calls move a lexer over as many characters, or they lead to rest. -/
theorem InOrder.le_index_or_resting (h : l.InOrder source) (n : Nat) :
    n ≤ (l.afterCalls n).index ∨ ∃ a, (l.afterCalls n).Resting a := by
  induction n with
  | zero => exact .inl (Nat.zero_le _)
  | succ n ih =>
    rw [afterCalls_succ]
    rcases ih with hle | ⟨a, hrest⟩
    · rcases (h.afterCalls n).progress with hlt | ⟨a, hrest⟩
      · exact .inl (Nat.lt_of_le_of_lt hle hlt)
      · exact .inr ⟨a, hrest.step.2.2.2⟩
    · exact .inr ⟨a, hrest.step.2.2.2⟩

/-- As many calls as the source has characters lead to rest. -/
theorem InOrder.exists_resting (h : l.InOrder source) :
    ∃ a, (l.afterCalls source.length).Resting a := by
  refine (h.le_index_or_resting source.length).elim (fun hle => ?_) id
  refine (h.afterCalls source.length).progress.resolve_left fun hlt => ?_
  have hindex := (h.afterCalls (source.length + 1)).isIn.index_le
  rw [afterCalls_succ] at hindex
  omega

theorem Reads.eq_afterCalls {m : Lexer} {ts : List Token} (h : l.Reads ts m) :
    m = afterCalls ts.length l := by
  induction h with
  | nil => rfl
  | snoc _ hnext _ ih =>
    rw [List.length_append, List.length_singleton, afterCalls_succ, ← ih, hnext]

theorem Reads.answer_eq {m : Lexer} {ts : List Token} (h : l.Reads ts m) {k : Nat}
    (ht : ts[k]? = some t) : l.answer k = .ok t := by
  obtain ⟨hk, hget⟩ := List.getElem?_eq_some_iff.mp ht
  have hsplit : ts = ts.take k ++ t :: ts.drop (k + 1) := by
    rw [← hget, List.getElem_cons_drop, List.take_append_drop]
  obtain ⟨m, behind, hreads, hnext, -⟩ := h.exists_next hsplit
  have hm := hreads.eq_afterCalls
  rw [List.length_take, Nat.min_eq_left (Nat.le_of_lt hk)] at hm
  unfold answer
  rw [← hm, hnext]

/-- Every token before the end of the source takes a character at least. -/
theorem Reads.length_le {m : Lexer} {ts : List Token} (h : (ofText source).Reads ts m) :
    ts.length ≤ m.index := by
  induction h with
  | nil => exact Nat.le_refl 0
  | snoc hreads hnext hkind ih =>
    obtain ⟨here, x, hcut⟩ := next_cut hnext
    have horder := hreads.inOrder (inOrder_ofText source)
    have hpos := List.length_pos_iff.mpr (horder.text_ne_nil hnext hkind)
    rw [hcut.index_eq, Token.fullText, List.length_append, List.length_append, List.length_append,
      List.length_singleton]
    omega

-- ---------------------------------------------------------------------------
-- The whole statement
-- ---------------------------------------------------------------------------

/-- What holds of the answers to calls, however many. -/
structure ComesToRest (source : List Char) (l : Lexer) : Prop where
  /-- A call moves on, or it changes nothing and all later ones answer as it did. -/
  moves : ∀ n, (afterCalls n l).index < (afterCalls (n + 1) l).index ∨
    (afterCalls (n + 1) l).index = (afterCalls n l).index ∧
    (afterCalls (n + 1) l).pos = (afterCalls n l).pos ∧
    (afterCalls (n + 1) l).contexts = (afterCalls n l).contexts ∧
    ∀ m, n ≤ m → l.answer m = l.answer n
  /-- Behind as many calls as there are characters, all answers are alike. -/
  settles : ∀ n, source.length ≤ n → l.answer n = l.answer source.length
  settled : (∃ failure, l.answer source.length = .error failure) ∨
    ∃ place, l.answer source.length = .ok ⟨.eof, [], .point place, [], []⟩
  /-- The tokens of the source are the answers up to the first failure or the end. -/
  stream : ∀ k t, l.stream.tokens[k]? = some t → l.answer k = .ok t
  ending : l.answer l.stream.tokens.length = l.stream.ending
  length_le : l.stream.tokens.length ≤ source.length
  text_ne_nil : ∀ n t, l.answer n = .ok t → t.kind ≠ .eof → t.text ≠ []
  finished : ∀ n, (afterCalls n l).finished = true ↔
    ∃ k < n, ∃ t, l.answer k = .ok t ∧ t.kind = .eof
  ended : ∀ n, (afterCalls n l).finished = true → ∃ t, l.answer n = .ok t ∧ t.kind = .eof
  stuck : ∀ n failure, l.answer n = .error failure → failure.isOpenLiteral = true →
    ∀ m, n ≤ m → l.answer m = .error failure ∧ (afterCalls m l).finished = false

/-- Behind a call that hands out the end of the source, all calls do. -/
theorem answer_of_eof {n m : Nat} (h : l.answer n = .ok t) (hkind : t.kind = .eof) (hlt : n < m) :
    ∃ t, l.answer m = .ok t ∧ t.kind = .eof := by
  have hrests : (afterCalls (n + 1) l).Resting
      (.ok ⟨.eof, [], .point (afterCalls (n + 1) l).pos, [], []⟩) := by
    rw [afterCalls_succ]
    exact resting_of_eof (Prod.ext h rfl) hkind
  exact ⟨_, answer_of_resting hrests hlt, rfl⟩

/-- Behind a call that fails at an open literal, all calls do. -/
theorem answer_of_openLiteral {n m : Nat} (h : l.answer n = .error failure)
    (hfailure : failure.isOpenLiteral = true) (hle : n ≤ m) : l.answer m = .error failure := by
  have hrests : (afterCalls (n + 1) l).Resting (.error failure) := by
    rw [afterCalls_succ]
    exact resting_of_openLiteral (Prod.ext h rfl) hfailure
  rcases Nat.eq_or_lt_of_le hle with rfl | hlt
  · exact h
  · exact answer_of_resting hrests hlt

end Lexer

/-- **Calls come to rest.** Whatever the source, each call moves on or changes nothing any more, so
that as many calls as the source has characters come to rest, and its tokens are found by then. The
end of the source, once handed out, is handed out forever, and a literal that does not end fails
forever. -/
theorem calls_come_to_rest (source : List Char) : (Lexer.ofText source).ComesToRest source := by
  have horder := Lexer.inOrder_ofText source
  have hfinished := Lexer.finished_afterCalls (l := Lexer.ofText source) rfl
  obtain ⟨a, hrests⟩ := horder.exists_resting
  obtain ⟨m, hreads, hending, -⟩ := (Lexer.ofText source).exists_reads_stream rfl
  constructor
  case moves =>
    intro n
    rw [Lexer.afterCalls_succ]
    refine (horder.afterCalls n).progress.imp_right fun ⟨a, hrests⟩ => ?_
    obtain ⟨hanswer, hcursor, hcontexts, -⟩ := hrests.step
    refine ⟨congrArg Cursor.index hcursor, congrArg Cursor.pos hcursor, hcontexts, fun m hle => ?_⟩
    rw [Lexer.answer_of_resting hrests hle]
    exact hanswer.symm
  case settles =>
    intro n hle
    rw [Lexer.answer_of_resting hrests hle, Lexer.answer_of_resting hrests (Nat.le_refl _)]
  case settled =>
    rw [Lexer.answer_of_resting hrests (Nat.le_refl _)]
    cases hrests with
    | failed => exact .inl ⟨_, rfl⟩
    | ended => exact .inr ⟨_, rfl⟩
  case stream => exact fun k t => hreads.answer_eq
  case ending =>
    unfold Lexer.answer
    rw [← hreads.eq_afterCalls, hending]
  case length_le =>
    exact Nat.le_trans hreads.length_le (hreads.inOrder horder).isIn.index_le
  case text_ne_nil =>
    exact fun n t hanswer => (horder.afterCalls n).text_ne_nil (Prod.ext hanswer rfl)
  case finished => exact hfinished
  case ended =>
    intro n hn
    obtain ⟨k, hlt, t, hanswer, hkind⟩ := (hfinished n).mp hn
    exact Lexer.answer_of_eof hanswer hkind hlt
  case stuck =>
    intro n failure hanswer hfailure m hle
    have hlater := fun m hle => Lexer.answer_of_openLiteral (m := m) hanswer hfailure hle
    refine ⟨hlater m hle, Bool.eq_false_iff.mpr fun hm => ?_⟩
    obtain ⟨k, -, t, heof, hkind⟩ := (hfinished m).mp hm
    -- the end of the source comes neither after the failure nor before it
    rcases Nat.lt_or_ge k n with hlt | hge
    · obtain ⟨t, hok, -⟩ := Lexer.answer_of_eof heof hkind hlt
      rw [hanswer] at hok
      cases hok
    · rw [hlater k hge] at heof
      cases heof

end SwiftColoring
