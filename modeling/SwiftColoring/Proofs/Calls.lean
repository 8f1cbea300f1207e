import SwiftColoring.Lexer.TokenStream
import SwiftColoring.Proofs.Lexeme
import SwiftColoring.Proofs.Place

/-!
# Calls for the next token

One call for the next token cuts trivia, a lexeme and trivia again off the front of what is left
of the source. `Cut` names the parts of a call that succeeds. Calls can be repeated without end,
past failures and past the end of the source; `afterCalls` is the lexer behind a number of them. A
token stream is what calls hand out before the first failure or the end, and `Reads` says that
they do, one call at a time.

* `next_cut` — a call that hands out a token cuts it off the source.
* `afterCalls_isIn` — after any number of calls the lexer stands in the source and counts truly.
* `stream_of_reads`, `exists_reads_stream` — a token stream holds what the calls hand out, in order.
-/

namespace SwiftColoring.Lexer

-- ---------------------------------------------------------------------------
-- One call
-- ---------------------------------------------------------------------------

/-- The lexer passes the trivia, which is the text at the cursor cut into pieces. -/
structure Passes (l : Lexer) (trivia : Trivia) (behind : Lexer) : Prop where
  eq_advance : behind = l.advance trivia.text.length
  text_isPrefix : trivia.text <+: l.rest
  text_ne_nil : ∀ p ∈ trivia, p.text ≠ []

theorem Passes.nil (l : Lexer) : l.Passes [] l where
  eq_advance := by simp [advance]
  text_isPrefix := List.nil_prefix
  text_ne_nil := by simp

/-- A gap is passed if no comment in it is open. -/
theorem takeGap_ok_iff {l behind : Lexer} {trailing : Bool} {trivia : Trivia} :
    l.takeGap trailing = (.ok trivia, behind) ↔
      (Gap.ofText trailing l.before.isEmpty l.rest).openComment = false ∧
        trivia = Trivia.ofList (Gap.ofText trailing l.before.isEmpty l.rest).pieces ∧
        behind = l.advance (Gap.ofText trailing l.before.isEmpty l.rest).length := by
  unfold takeGap
  simp only
  constructor
  · intro h
    split at h
    · cases h
    · rename_i hopen
      obtain ⟨htrivia, rfl⟩ := Prod.mk.inj h
      exact ⟨Bool.eq_false_iff.mpr hopen, (Except.ok.inj htrivia).symm, rfl⟩
  · rintro ⟨hopen, rfl, rfl⟩
    rw [hopen, if_neg Bool.false_ne_true]

theorem takeGap_of_nothing {l : Lexer} {trailing : Bool}
    (h : GapStart.ofText trailing l.before.isEmpty l.rest = .nothing) :
    l.takeGap trailing = (.ok [], l) := by
  rw [takeGap_ok_iff, Gap.ofText_of_nothing h]
  exact ⟨rfl, rfl, congrArg (fun c => { l with toCursor := c }) l.toCursor.advance_zero.symm⟩

theorem takeGap_ok {l behind : Lexer} {trailing : Bool} {trivia : Trivia}
    (h : l.takeGap trailing = (.ok trivia, behind)) :
    l.Passes trivia behind ∧
      GapStart.ofText trailing behind.before.isEmpty behind.rest = .nothing := by
  obtain ⟨hclosed, rfl, rfl⟩ := takeGap_ok_iff.mp h
  set gap := Gap.ofText trailing l.before.isEmpty l.rest with hgap
  have hlength : gap.length = (Trivia.text (Trivia.ofList gap.pieces)).length := by
    rw [Trivia.text_ofList]
    rfl
  refine ⟨⟨by rw [hlength], ?_, fun p => Trivia.text_ne_nil_of_mem_ofList
    fun q => Gap.text_ne_nil_of_mem⟩, ?_⟩
  · rw [Trivia.text_ofList]
    exact Gap.text_isPrefix ..
  · have hstop := Gap.ofText_stop trailing l.before.isEmpty l.rest
    rw [← hgap, hclosed, if_neg Bool.false_ne_true] at hstop
    have hpassed : l.rest.take gap.length = Trivia.text gap.pieces :=
      (List.prefix_iff_eq_take.mp (Gap.text_isPrefix ..)).symm
    have hempty : (l.advance gap.length).before.isEmpty =
        (l.before.isEmpty && gap.pieces.isEmpty) := by
      rw [advance_toCursor, Cursor.advance_before, hpassed]
      cases hpieces : gap.pieces with
      | nil => simp
      | cons p pieces =>
        -- a piece passed leaves characters before the cursor
        have hp : p.text ≠ [] :=
          Gap.text_ne_nil_of_mem (by rw [← hgap, hpieces]; exact List.mem_cons_self ..)
        simp [hp]
    rw [hempty]
    exact hstop

theorem takeLeading_ok {l behind : Lexer} {trivia : Trivia}
    (h : l.takeLeading = (.ok trivia, behind)) :
    l.Passes trivia behind ∧
      (l.context.isCode = true →
        GapStart.ofText false behind.before.isEmpty behind.rest = .nothing) ∧
      (l.context.isCode = false → trivia = []) := by
  unfold takeLeading at h
  split at h
  · rename_i hcode
    obtain ⟨hpasses, hstop⟩ := takeGap_ok h
    exact ⟨hpasses, fun _ => hstop, fun hnot => by rw [hcode] at hnot; cases hnot⟩
  · rename_i hcode
    obtain ⟨htrivia, rfl⟩ := Prod.mk.inj h
    obtain rfl := Except.ok.inj htrivia
    exact ⟨.nil l, fun hyes => absurd hyes hcode, fun _ => rfl⟩

theorem takeTrailing_ok {l behind : Lexer} {kind : Kind} {trivia : Trivia}
    (h : l.takeTrailing kind = (.ok trivia, behind)) :
    l.Passes trivia behind ∧ (l.context.isCode = false → trivia = []) := by
  unfold takeTrailing at h
  split at h
  · rename_i hcode
    rw [Bool.and_eq_true] at hcode
    exact ⟨(takeGap_ok h).1, fun hnot => by rw [hcode.1] at hnot; cases hnot⟩
  · obtain ⟨htrivia, rfl⟩ := Prod.mk.inj h
    obtain rfl := Except.ok.inj htrivia
    exact ⟨.nil l, fun _ => rfl⟩

/-- How a call cuts a token off the source: trivia up to the cursor `here`, the lexeme `x` there,
and trivia again. -/
structure Cut (l : Lexer) (t : Token) (behind here : Lexer) (x : Lexeme) : Prop where
  leading : l.Passes t.leading here
  /-- In code no trivia is left before the lexeme. -/
  stop : l.context.isCode = true → GapStart.ofText false here.before.isEmpty here.rest = .nothing
  leading_nil : l.context.isCode = false → t.leading = []
  lexeme_eq : here.lexeme = .ok x
  trailing : (here.accept x).Passes t.trailing behind
  trailing_nil : (here.accept x).context.isCode = false → t.trailing = []
  kind_eq : t.kind = x.kind
  text_eq : t.text = here.rest.take x.length
  span_eq : t.span = ⟨here.pos, (here.accept x).pos⟩

/-- The parts of a call that hands out a token, as the lexer takes them. -/
theorem next_ok_iff {l behind : Lexer} {t : Token} :
    l.next = (.ok t, behind) ↔ ∃ leading here x trailing,
      l.takeLeading = (.ok leading, here) ∧ here.lexeme = .ok x ∧
        (here.accept x).takeTrailing x.kind = (.ok trailing, behind) ∧
        t = ⟨x.kind, here.rest.take x.length, ⟨here.pos, (here.accept x).pos⟩, leading, trailing⟩ := by
  constructor
  · intro h
    unfold next at h
    split at h
    · cases h
    rename_i leading here hleading
    split at h
    · cases h
    rename_i x hx
    split at h
    · cases h
    rename_i trailing last htrailing
    obtain ⟨ht, rfl⟩ := Prod.mk.inj h
    exact ⟨leading, here, x, trailing, hleading, hx, htrailing, (Except.ok.inj ht).symm⟩
  · rintro ⟨leading, here, x, trailing, hleading, hx, htrailing, rfl⟩
    unfold next
    simp only [hleading, hx, htrailing]

/-- A call for a lexeme of code that has no trivia on either side. -/
theorem next_of_bare {l : Lexer} {x : Lexeme} (hcode : l.context.isCode = true)
    (hstart : GapStart.ofText false l.before.isEmpty l.rest = .nothing) (hx : l.lexeme = .ok x)
    (hstop : GapStart.ofText true (l.accept x).before.isEmpty (l.accept x).rest = .nothing) :
    l.next = (.ok ⟨x.kind, l.rest.take x.length, ⟨l.pos, (l.accept x).pos⟩, [], []⟩, l.accept x) := by
  have hleading : l.takeLeading = (.ok [], l) := by
    unfold takeLeading
    rw [if_pos hcode]
    exact takeGap_of_nothing hstart
  have htrailing : (l.accept x).takeTrailing x.kind = (.ok [], l.accept x) := by
    unfold takeTrailing
    split
    · exact takeGap_of_nothing hstop
    · rfl
  exact next_ok_iff.mpr ⟨[], l, x, [], hleading, hx, htrailing, rfl⟩

theorem next_cut {l behind : Lexer} {t : Token} (h : l.next = (.ok t, behind)) :
    ∃ here x, Cut l t behind here x := by
  obtain ⟨leading, here, x, trailing, hleading, hx, htrailing, rfl⟩ := next_ok_iff.mp h
  obtain ⟨hpasses, hstop, hnil⟩ := takeLeading_ok hleading
  obtain ⟨hpasses', hnil'⟩ := takeTrailing_ok htrailing
  exact ⟨here, x, ⟨hpasses, hstop, hnil, hx, hpasses', hnil', rfl, rfl, rfl⟩⟩

theorem Passes.rest_eq {l behind : Lexer} {trivia : Trivia} (h : l.Passes trivia behind) :
    l.rest = trivia.text ++ behind.rest := by
  obtain ⟨rest, hrest⟩ := h.text_isPrefix
  rw [h.eq_advance, advance_toCursor, Cursor.advance_rest, ← hrest, List.drop_left]

/-- A move by more than what is left ends where a move by what is left does. -/
theorem advance_eq_of_take (l : Lexer) (n : Nat) : l.advance n = l.advance (l.rest.take n).length := by
  have hcursor : l.toCursor.advance n = l.toCursor.advance (l.rest.take n).length := by
    unfold Cursor.advance
    rw [List.length_take, ← List.take_eq_take_min, ← List.drop_eq_drop_min]
  unfold advance
  rw [hcursor]

namespace Cut

variable {l behind here : Lexer} {t : Token} {x : Lexeme}

theorem here_contexts (h : Cut l t behind here x) : here.contexts = l.contexts := by
  rw [h.leading.eq_advance, advance_contexts]

theorem here_context (h : Cut l t behind here x) : here.context = l.context := by
  rw [h.leading.eq_advance, advance_context]

theorem behind_contexts (h : Cut l t behind here x) : behind.contexts = x.contexts := by
  rw [h.trailing.eq_advance, advance_contexts]
  rfl

theorem behind_finished (h : Cut l t behind here x) :
    behind.finished = (l.finished || t.kind == .eof) := by
  rw [h.trailing.eq_advance, advance_finished, h.kind_eq]
  show (here.finished || x.kind == .eof) = _
  rw [h.leading.eq_advance, advance_finished]

/-- The characters of the token are those at the cursor, trivia included. -/
theorem rest_eq (h : Cut l t behind here x) : l.rest = t.fullText ++ behind.rest := by
  have haccept : here.rest = t.text ++ (here.accept x).rest := by
    rw [h.text_eq]
    exact (List.take_append_drop ..).symm
  rw [h.leading.rest_eq, haccept, h.trailing.rest_eq, Token.fullText]
  simp only [List.append_assoc]

theorem rest_of_leading (h : Cut l t behind here x) (hnone : t.leading = []) :
    l.rest = here.rest := by
  rw [h.leading.rest_eq, hnone]
  rfl

theorem rest_of_trailing (h : Cut l t behind here x) (hnone : t.trailing = []) :
    behind.rest = here.rest.drop x.length := by
  have hpassed := h.trailing.rest_eq
  rw [hnone] at hpassed
  exact hpassed.symm

theorem span_start (h : Cut l t behind here x) : t.span.start = l.pos.after t.leading.text := by
  rw [h.span_eq, h.leading.eq_advance]
  show l.pos.after (l.rest.take t.leading.text.length) = _
  rw [h.leading.rest_eq, List.take_left]

theorem span_stop (h : Cut l t behind here x) :
    t.span.stop = l.pos.after (t.leading.text ++ t.text) := by
  rw [Pos.after_append, ← h.span_start, h.span_eq, h.text_eq]
  rfl

/-- The cursor moves over the token, trivia included, and over nothing else. -/
theorem toCursor_eq (h : Cut l t behind here x) :
    behind.toCursor = l.toCursor.advance t.fullText.length := by
  have hlength : t.fullText.length =
      t.leading.text.length + (t.text.length + t.trailing.text.length) := by
    rw [Token.fullText, List.length_append, List.length_append, Nat.add_assoc]
  have haccept : (here.accept x).toCursor = here.toCursor.advance t.text.length := by
    rw [h.text_eq, ← advance_toCursor, ← advance_eq_of_take]
    rfl
  rw [hlength, ← Cursor.advance_advance, ← Cursor.advance_advance, ← advance_toCursor l,
    ← h.leading.eq_advance, ← haccept, h.trailing.eq_advance, advance_toCursor]

/-- The token that ends the source is handed out where nothing is left. -/
theorem rest_of_eof (h : Cut l t behind here x) (hkind : t.kind = .eof) : behind.rest = [] := by
  have hhere : here.rest = [] := (at_end_of_kind_eof h.lexeme_eq (h.kind_eq.symm.trans hkind)).2
  have haccept : (here.accept x).rest = [] := by
    show here.rest.drop x.length = []
    rw [hhere, List.drop_nil]
  rw [h.trailing.rest_eq] at haccept
  exact (List.append_eq_nil_iff.mp haccept).2

theorem text_of_eof (h : Cut l t behind here x) (hkind : t.kind = .eof) : t.text = [] := by
  rw [h.text_eq, (at_end_of_kind_eof h.lexeme_eq (h.kind_eq.symm.trans hkind)).2, List.take_nil]

/-- What no token starts with has been passed as trivia, so that every token is of a known kind. -/
theorem kind_ne_unknown (h : Cut l t behind here x) : t.kind ≠ .unknown := by
  rw [h.kind_eq]
  refine kind_ne_unknown_of_startsToken h.lexeme_eq fun c text hcode hrest => ?_
  have hstop := h.stop (by rw [← h.here_context]; exact hcode)
  rw [hrest] at hstop
  exact startsToken_of_stop hstop

end Cut

-- ---------------------------------------------------------------------------
-- Calls in a row
-- ---------------------------------------------------------------------------

/-- The lexer behind a number of calls, whatever they answer. -/
def afterCalls : Nat → Lexer → Lexer
  | 0, l => l
  | n + 1, l => afterCalls n l.next.2

theorem next_advance (l : Lexer) : ∃ n, l.next.2.toCursor = l.toCursor.advance n := by
  unfold next
  obtain ⟨m, hm⟩ := l.takeLeading_advance
  split
  · rename_i heq
    rw [heq] at hm
    exact ⟨m, congrArg toCursor hm⟩
  rename_i here heq
  rw [heq] at hm
  simp only at hm
  split
  · rename_i stop _
    exact ⟨m + stop.length, by rw [hm, advance_toCursor, advance_toCursor, Cursor.advance_advance]⟩
  rename_i x _
  obtain ⟨n, hn⟩ := (here.accept x).takeTrailing_advance x.kind
  have hcursor : ((here.accept x).advance n).toCursor = l.toCursor.advance (m + x.length + n) := by
    rw [advance_toCursor, ← Cursor.advance_advance, ← Cursor.advance_advance, ← advance_toCursor l,
      ← hm]
    rfl
  split
  · rename_i heq'
    rw [heq'] at hn
    exact ⟨_, (congrArg toCursor hn).trans hcursor⟩
  · rename_i heq'
    rw [heq'] at hn
    exact ⟨_, (congrArg toCursor hn).trans hcursor⟩

theorem afterCalls_isIn {source : List Char} {l : Lexer} (h : l.toCursor.IsIn source) (n : Nat) :
    (afterCalls n l).toCursor.IsIn source := by
  induction n generalizing l with
  | zero => exact h
  | succ n ih =>
    obtain ⟨m, hm⟩ := l.next_advance
    exact ih (by rw [hm]; exact h.advance m)

-- ---------------------------------------------------------------------------
-- Token streams as calls in a row
-- ---------------------------------------------------------------------------

/-- Calls in a row hand out the tokens, none of which ends the source, and leave the second lexer.
-/
inductive Reads (l : Lexer) : List Token → Lexer → Prop where
  | nil : Reads l [] l
  | snoc {ts : List Token} {m behind : Lexer} {t : Token} (hreads : Reads l ts m)
      (hnext : m.next = (.ok t, behind)) (hkind : t.kind ≠ .eof) : Reads l (ts ++ [t]) behind

/-- No calls lead nowhere. -/
theorem Reads.eq_of_nil {l m : Lexer} (h : l.Reads [] m) : m = l := by
  generalize hnil : [] = ts at h
  cases h with
  | nil => rfl
  | snoc => simp at hnil

/-- Calls in a row, and then more of them. -/
theorem Reads.append {l m k : Lexer} {ts us : List Token} (h : l.Reads ts m) (h' : m.Reads us k) :
    l.Reads (ts ++ us) k := by
  induction h' with
  | nil => rwa [List.append_nil]
  | snoc _ hnext hkind ih =>
    rw [← List.append_assoc]
    exact .snoc ih hnext hkind

/-- The first of calls in a row. -/
theorem Reads.uncons {l m : Lexer} {t : Token} {ts : List Token} (h : l.Reads (t :: ts) m) :
    ∃ k, l.next = (.ok t, k) ∧ t.kind ≠ .eof ∧ k.Reads ts m := by
  generalize hlist : t :: ts = us at h
  induction h generalizing ts with
  | nil => cases hlist
  | @snoc us m behind u hreads hnext hkind ih =>
    cases us with
    | nil =>
      cases hreads.eq_of_nil
      obtain ⟨rfl, rfl⟩ := List.cons.inj hlist
      exact ⟨behind, hnext, hkind, .nil⟩
    | cons v us =>
      obtain ⟨rfl, rfl⟩ := List.cons.inj hlist
      obtain ⟨k, hk, hkind', hrest⟩ := ih rfl
      exact ⟨k, hk, hkind', .snoc hrest hnext hkind⟩

/-- The characters of what calls in a row hand out are those that they pass. -/
theorem Reads.rest_eq {l m : Lexer} {ts : List Token} (h : l.Reads ts m) :
    l.rest = ts.flatMap Token.fullText ++ m.rest := by
  induction h with
  | nil => rfl
  | snoc _ hnext _ ih =>
    obtain ⟨here, x, hcut⟩ := next_cut hnext
    rw [ih, hcut.rest_eq, List.flatMap_append, List.flatMap_singleton, List.append_assoc]

theorem next_finished {l behind : Lexer} {t : Token} (h : l.next = (.ok t, behind)) :
    behind.finished = (l.finished || t.kind == .eof) := by
  obtain ⟨here, x, hcut⟩ := next_cut h
  exact hcut.behind_finished

theorem Reads.finished {l m : Lexer} {ts : List Token} (h : l.Reads ts m)
    (hl : l.finished = false) : m.finished = false := by
  induction h with
  | nil => exact hl
  | snoc _ hnext hkind ih =>
    rw [next_finished hnext, ih, Bool.false_or]
    exact beq_eq_false_iff_ne.mpr hkind

theorem stream_of_error {l : Lexer} {failure : Failure} (h : l.next.1 = .error failure) :
    l.stream = ⟨[], .error failure⟩ := by
  unfold stream
  split
  · rename_i heq
    rw [heq] at h
    rw [Except.error.inj h]
  · rename_i heq
    rw [heq] at h
    cases h

theorem stream_of_eof {l : Lexer} {t : Token} (h : l.next.1 = .ok t) (hkind : t.kind = .eof) :
    l.stream = ⟨[], .ok t⟩ := by
  unfold stream
  split
  · rename_i heq
    rw [heq] at h
    cases h
  · rename_i u behind heq
    rw [heq] at h
    obtain rfl := Except.ok.inj h
    have hfinished : behind.finished = true := by
      rw [next_finished heq, hkind]
      exact Bool.or_true _
    rw [if_pos hfinished]

theorem stream_of_next {l behind : Lexer} {t : Token} (h : l.next = (.ok t, behind))
    (hl : l.finished = false) (hkind : t.kind ≠ .eof) : l.stream = behind.stream.cons t := by
  have hfinished : behind.finished = false := (Reads.snoc .nil h hkind).finished hl
  rw [stream]
  split
  · rename_i heq
    rw [h] at heq
    cases heq
  · rename_i heq
    rw [h] at heq
    obtain ⟨hu, rfl⟩ := Prod.mk.inj heq
    obtain rfl := Except.ok.inj hu
    rw [if_neg (by rw [hfinished]; exact Bool.false_ne_true)]

/-- What calls have handed out stands at the front of the stream; the rest of the stream is that
of the lexer they leave. -/
theorem stream_of_reads {l m : Lexer} {ts : List Token} (h : l.Reads ts m)
    (hl : l.finished = false) : l.stream = ⟨ts ++ m.stream.tokens, m.stream.ending⟩ := by
  induction h with
  | nil => rfl
  | snoc hreads hnext hkind ih =>
    rw [ih, stream_of_next hnext (hreads.finished hl) hkind, List.append_assoc]
    rfl

/-- Calls in a row hand out the tokens of a stream, and the next call answers as the stream ends. -/
theorem exists_reads_stream (l : Lexer) (hl : l.finished = false) :
    ∃ m, l.Reads l.stream.tokens m ∧ m.next.1 = l.stream.ending ∧
      ∀ eof, l.stream.ending = .ok eof → eof.kind = .eof := by
  -- the stream of any lexer that calls lead to continues what they have handed out
  have hgeneral : ∀ (k : Lexer) (ts : List Token), l.Reads ts k →
      ∃ m, l.Reads (ts ++ k.stream.tokens) m ∧ m.next.1 = k.stream.ending ∧
        ∀ eof, k.stream.ending = .ok eof → eof.kind = .eof := by
    intro k
    fun_induction stream k with
    | case1 k failure behind hnext =>
      intro ts hreads
      refine ⟨k, by rw [List.append_nil]; exact hreads, by rw [hnext], fun eof heof => ?_⟩
      cases heof
    | case2 k t behind hnext hfinished =>
      intro ts hreads
      refine ⟨k, by rw [List.append_nil]; exact hreads, by rw [hnext], fun eof heof => ?_⟩
      obtain rfl := Except.ok.inj heof
      rw [next_finished hnext, hreads.finished hl, Bool.false_or] at hfinished
      exact eq_of_beq hfinished
    | case3 k t behind hnext hfinished ih =>
      intro ts hreads
      have hkind : t.kind ≠ .eof := by
        intro hkind
        rw [next_finished hnext, hkind] at hfinished
        exact hfinished (Bool.or_true _)
      obtain ⟨m, hm⟩ := ih (ts ++ [t]) (.snoc hreads hnext hkind)
      rw [List.append_assoc] at hm
      exact ⟨m, hm⟩
  exact hgeneral l [] .nil

theorem Reads.isIn {source : List Char} {l m : Lexer} {ts : List Token} (h : l.Reads ts m)
    (hl : l.toCursor.IsIn source) : m.toCursor.IsIn source := by
  induction h with
  | nil => exact hl
  | snoc _ hnext _ ih =>
    obtain ⟨here, x, hcut⟩ := next_cut hnext
    rw [hcut.toCursor_eq]
    exact ih.advance _

/-- Each of the tokens is what the calls before it lead to. -/
theorem Reads.exists_next {l m : Lexer} {ts first rest : List Token} {t : Token} (h : l.Reads ts m)
    (hts : ts = first ++ t :: rest) :
    ∃ k behind, l.Reads first k ∧ k.next = (.ok t, behind) ∧ t.kind ≠ .eof := by
  induction h generalizing rest with
  | nil => simp at hts
  | @snoc us m behind u hreads hnext hkind ih =>
    rcases List.eq_nil_or_concat rest with rfl | ⟨rest', v, rfl⟩
    · -- the token is the last one handed out
      obtain ⟨rfl, hu⟩ := List.append_inj' hts rfl
      obtain rfl := List.singleton_inj.mp hu
      exact ⟨m, behind, hreads, hnext, hkind⟩
    · rw [List.concat_eq_append, ← List.cons_append, ← List.append_assoc] at hts
      exact ih (List.append_inj' hts rfl).1

/-- The last of calls in a row. -/
theorem Reads.exists_of_concat {l m : Lexer} {ts : List Token} {t : Token} (h : l.Reads (ts ++ [t]) m) :
    ∃ k, l.Reads ts k ∧ k.next = (.ok t, m) ∧ t.kind ≠ .eof := by
  generalize hlist : ts ++ [t] = us at h
  cases h with
  | nil => simp at hlist
  | snoc hreads hnext hkind =>
    obtain ⟨rfl, ht⟩ := List.append_inj' hlist rfl
    obtain rfl := List.singleton_inj.mp ht
    exact ⟨_, hreads, hnext, hkind⟩

theorem Reads.kind_ne_eof {l m : Lexer} {ts : List Token} (h : l.Reads ts m) :
    ∀ t ∈ ts, t.kind ≠ .eof := by
  induction h with
  | nil => simp
  | snoc _ _ hkind ih =>
    intro u hu
    rcases List.mem_append.mp hu with hu | hu
    · exact ih u hu
    · rw [List.mem_singleton.mp hu]
      exact hkind

/-- The tokens of a source are what calls hand out before the token that ends it, and that token. -/
theorem exists_reads_of_tokens {source : List Char} {ts : List Token} (h : tokens source = .ok ts) :
    ∃ init eof m behind, ts = init ++ [eof] ∧ (ofText source).Reads init m ∧
      m.next = (.ok eof, behind) ∧ eof.kind = .eof := by
  obtain ⟨m, hreads, hnext, hkind⟩ := (ofText source).exists_reads_stream rfl
  unfold tokens TokenStream.ofText TokenStream.toExcept at h
  cases hending : (ofText source).stream.ending with
  | error failure =>
    rw [hending] at h
    cases h
  | ok eof =>
    rw [hending] at h hnext
    obtain rfl := Except.ok.inj h
    exact ⟨_, eof, m, m.next.2, rfl, hreads, Prod.ext hnext rfl, hkind eof hending⟩

/-- What calls hand out up to the token that ends the source are its tokens. -/
theorem tokens_of_reads {source : List Char} {ts : List Token} {m behind : Lexer} {eof : Token}
    (hreads : (ofText source).Reads ts m) (hnext : m.next = (.ok eof, behind))
    (hkind : eof.kind = .eof) : tokens source = .ok (ts ++ [eof]) := by
  unfold tokens TokenStream.ofText TokenStream.toExcept
  rw [stream_of_reads hreads rfl, stream_of_eof (congrArg Prod.fst hnext) hkind, List.append_nil]
  rfl

/-- Each token of a source is what the calls before it lead to. -/
theorem exists_next_of_tokens {source : List Char} {first rest : List Token} {t : Token}
    (h : tokens source = .ok (first ++ t :: rest)) :
    ∃ l behind, (ofText source).Reads first l ∧ l.next = (.ok t, behind) := by
  obtain ⟨init, eof, m, last, hts, hreads, hnext, -⟩ := exists_reads_of_tokens h
  rcases List.eq_nil_or_concat rest with rfl | ⟨rest, u, rfl⟩
  · -- the last one ends the source
    obtain ⟨rfl, heof⟩ := List.append_inj' hts rfl
    obtain rfl := List.singleton_inj.mp heof
    exact ⟨m, last, hreads, hnext⟩
  · rw [List.concat_eq_append, ← List.cons_append, ← List.append_assoc] at hts
    obtain ⟨l, behind, hfirst, hl, -⟩ := hreads.exists_next (List.append_inj' hts rfl).1.symm
    exact ⟨l, behind, hfirst, hl⟩

/-- Behind a token that does not end the source, the next call hands out the next one. -/
theorem exists_calls_of_tokens {source : List Char} {before behind : List Token} {t : Token}
    (h : tokens source = .ok (before ++ t :: behind)) (hkind : t.kind ≠ .eof) :
    ∃ next after l m k, behind = next :: after ∧ (ofText source).Reads before l ∧
      l.next = (.ok t, m) ∧ m.next = (.ok next, k) := by
  cases behind with
  | nil =>
    -- the last token ends the source
    obtain ⟨init, eof, m, last, hts, -, -, heof⟩ := exists_reads_of_tokens h
    obtain ⟨-, ht⟩ := List.append_inj' hts rfl
    rw [List.singleton_inj.mp ht] at hkind
    exact absurd heof hkind
  | cons next after =>
    rw [← List.singleton_append, ← List.append_assoc] at h
    obtain ⟨m, k, hreads, hnext⟩ := exists_next_of_tokens h
    obtain ⟨l, hbefore, ht, -⟩ := hreads.exists_of_concat
    exact ⟨next, after, l, m, k, rfl, hbefore, ht, hnext⟩

/-- Every token of a source is cut off it by a call. -/
theorem exists_cut_of_mem_tokens {source : List Char} {ts : List Token} {t : Token}
    (h : tokens source = .ok ts) (ht : t ∈ ts) : ∃ l behind here x, Cut l t behind here x := by
  obtain ⟨first, rest, rfl⟩ := List.append_of_mem ht
  obtain ⟨l, behind, -, hnext⟩ := exists_next_of_tokens h
  exact ⟨l, behind, next_cut hnext⟩

end SwiftColoring.Lexer

namespace SwiftColoring

/-- What is known of a success shows that there is one. -/
theorem exists_ok_of_toOption_map {α β : Type} {answer : Except Failure α} {f : α → β}
    {b : β} (h : answer.toOption.map f = some b) : ∃ a, answer = .ok a ∧ f a = b := by
  cases answer with
  | error failure => cases h
  | ok a => exact ⟨a, rfl, Option.some.inj h⟩

end SwiftColoring
