import SwiftColoring.Drawing.Source
import SwiftColoring.Proofs.Calls

/-!
# Trees and balance

Growing a tree succeeds on exactly the token streams whose delimiters are balanced, and the walk
through the tree gives the tokens back. `Balanced` and `LeavesOpen` say what that means without a
stack: a stretch of tokens in which every delimiter is matched, and one that also opens delimiters
which nothing has closed yet. `FirstFault` names the failure of a source that does not make a
tree: the first in the order of tokens, be it of a delimiter or of the lexer.

* `Growth.foldlM_push_ok`, `Growth.foldlM_push_error` — what a tree in growth stands for, and
  where it stops.
* `Growth.exists_foldlM_push` — tokens that only leave delimiters open can always be added.
* `SourceTree.ofText?_eq_grow` — the tree is the one grown call by call.
* `tree_agrees_with_tokens` — the whole statement.
-/

namespace SwiftColoring

-- ---------------------------------------------------------------------------
-- Balanced delimiters
-- ---------------------------------------------------------------------------

/-- Every delimiter among the tokens is matched, the last opened first closed. -/
inductive Balanced : List Token → Prop where
  | nil : Balanced []
  | token {t : Token} {ts : List Token} (hopens : t.kind.opensGroup = false)
      (hcloses : t.kind.closesGroup = false) (hrest : Balanced ts) : Balanced (t :: ts)
  | group {opening closing : Token} {inner ts : List Token}
      (hpair : opening.kind.isClosedBy closing.kind = true) (hinner : Balanced inner)
      (hrest : Balanced ts) : Balanced (opening :: inner ++ closing :: ts)

/-- Every closing delimiter among the tokens is matched, and the opening ones that are not are the
second list, innermost first. -/
inductive LeavesOpen : List Token → List Token → Prop where
  | balanced {ts : List Token} (h : Balanced ts) : LeavesOpen ts []
  | opening {ts opened inner : List Token} {t : Token} (h : LeavesOpen ts opened)
      (hopens : t.kind.opensGroup = true) (hinner : Balanced inner) :
      LeavesOpen (ts ++ t :: inner) (t :: opened)

theorem Balanced.append {ts us : List Token} (h : Balanced ts) (hus : Balanced us) :
    Balanced (ts ++ us) := by
  induction h with
  | nil => exact hus
  | token hopens hcloses _ ih => exact .token hopens hcloses ih
  | group hpair hinner _ _ ih =>
    rw [List.append_assoc]
    exact .group hpair hinner ih

/-- Balance is a matter of the kinds of the tokens. -/
theorem Balanced.of_kinds {ts us : List Token} (h : Balanced ts)
    (hkinds : us.map Token.kind = ts.map Token.kind) : Balanced us := by
  induction h generalizing us with
  | nil =>
    rw [List.map_eq_nil_iff.mp hkinds]
    exact .nil
  | token hopens hcloses _ ih =>
    obtain ⟨u, us, rfl, hu, hrest⟩ := List.map_eq_cons_iff.mp hkinds
    exact .token (by rw [hu]; exact hopens) (by rw [hu]; exact hcloses) (ih hrest)
  | group hpair _ _ ih ih' =>
    rw [List.map_append, List.map_cons, List.map_cons] at hkinds
    obtain ⟨front, back, rfl, hfront, hback⟩ := List.map_eq_append_iff.mp hkinds
    obtain ⟨u, inner, rfl, hu, hinner⟩ := List.map_eq_cons_iff.mp hfront
    obtain ⟨v, us, rfl, hv, hrest⟩ := List.map_eq_cons_iff.mp hback
    exact .group (by rw [hu, hv]; exact hpair) (ih hinner) (ih' hrest)

namespace LeavesOpen

variable {ts us opened : List Token} {t o : Token}

theorem append (h : LeavesOpen ts opened) (hus : Balanced us) : LeavesOpen (ts ++ us) opened := by
  cases h with
  | balanced hts => exact .balanced (hts.append hus)
  | opening hpre hopens hinner =>
    rw [List.append_assoc]
    exact .opening hpre hopens (hinner.append hus)

theorem balanced_of_nil (h : LeavesOpen ts []) : Balanced ts := by
  cases h with
  | balanced hts => exact hts

/-- A closing delimiter that matches the innermost open one closes it. -/
theorem close (h : LeavesOpen ts (o :: opened)) (hpair : o.kind.isClosedBy t.kind = true) :
    LeavesOpen (ts ++ [t]) opened := by
  cases h with
  | opening hpre _ hinner =>
    rw [List.append_assoc]
    exact hpre.append (.group hpair hinner .nil)

end LeavesOpen

-- ---------------------------------------------------------------------------
-- Kinds of delimiters
-- ---------------------------------------------------------------------------

private theorem opensGroup_of_pair {k j : Kind} (h : k.isClosedBy j = true) :
    k.opensGroup = true := by
  unfold Kind.isClosedBy at h
  split at h
  case h_5 => cases h
  all_goals rfl

theorem closesGroup_of_pair {k j : Kind} (h : k.isClosedBy j = true) :
    j.closesGroup = true := by
  unfold Kind.isClosedBy at h
  split at h
  case h_5 => cases h
  all_goals rfl

theorem opensGroup_of_closes {k : Kind} (h : k.closesGroup = true) :
    k.opensGroup = false := by
  unfold Kind.closesGroup at h
  split at h
  case h_5 => cases h
  all_goals rfl

-- ---------------------------------------------------------------------------
-- A tree in growth
-- ---------------------------------------------------------------------------

/-- The tokens of an open group so far. -/
def OpenGroup.flatten (group : OpenGroup) : List Token :=
  group.opening :: Node.flattenAll group.items.reverse

namespace Growth

/-- The delimiters that are open, innermost first. -/
def openings (g : Growth) : List Token := g.groups.map OpenGroup.opening

/-- The tokens grown so far, in source order. -/
def flatten (g : Growth) : List Token :=
  Node.flattenAll g.roots.reverse ++ g.groups.reverse.flatMap OpenGroup.flatten

@[simp] theorem flatten_empty : empty.flatten = [] := rfl

@[simp] theorem openings_add (g : Growth) (node : Node) : (g.add node).openings = g.openings := by
  unfold add openings
  split
  · rfl
  · rename_i hgroups
    rw [hgroups]
    rfl

private theorem flattenAll_concat (nodes : List Node) (node : Node) :
    Node.flattenAll (nodes ++ [node]) = Node.flattenAll nodes ++ node.flatten := by
  rw [Node.flattenAll_append, Node.flattenAll, Node.flattenAll, List.append_nil]

@[simp] theorem flatten_add (g : Growth) (node : Node) :
    (g.add node).flatten = g.flatten ++ node.flatten := by
  unfold add flatten
  split
  · rename_i hgroups
    simp only [hgroups, List.reverse_cons, List.reverse_nil, List.flatMap_nil, List.append_nil,
      flattenAll_concat]
  · rename_i inner outer hgroups
    simp only [hgroups, List.reverse_cons, List.flatMap_append, List.flatMap_singleton,
      OpenGroup.flatten, flattenAll_concat, List.cons_append, List.append_assoc]

/-- A closing delimiter is accepted only where it matches the innermost open one. -/
theorem close_ok {g g' : Growth} {t : Token} (h : g.close t = .ok g') :
    ∃ o, g.openings = o :: g'.openings ∧ o.kind.isClosedBy t.kind = true ∧
      g'.flatten = g.flatten ++ [t] := by
  unfold close at h
  split at h
  · simp at h
  rename_i inner outer hgroups
  split at h
  · rename_i hpair
    obtain rfl := Except.ok.inj h
    refine ⟨inner.opening, ?_, hpair, ?_⟩
    · rw [openings_add, openings, hgroups]
      rfl
    · -- the group moves from the stack into what it stands in
      rw [flatten_add, flatten, flatten, hgroups, List.reverse_cons, List.flatMap_append,
        List.flatMap_singleton, OpenGroup.flatten, Node.flatten]
      simp only [List.append_assoc, List.cons_append]
  · simp at h

theorem push_opening {t : Token} (g : Growth) (hopens : t.kind.opensGroup = true) :
    g.push t = .ok { g with groups := ⟨t, []⟩ :: g.groups } := by
  unfold push
  rw [hopens]
  rfl

theorem push_other {t : Token} (g : Growth) (hopens : t.kind.opensGroup = false)
    (hcloses : t.kind.closesGroup = false) : g.push t = .ok (g.add (.token t)) := by
  unfold push
  rw [hopens, hcloses]
  rfl

theorem exists_push_closing {g : Growth} {o t : Token} {opened : List Token}
    (hopen : g.openings = o :: opened) (hpair : o.kind.isClosedBy t.kind = true) :
    ∃ g', g.push t = .ok g' ∧ g'.openings = opened := by
  obtain ⟨inner, outer, hgroups, rfl, houter⟩ := List.map_eq_cons_iff.mp hopen
  refine ⟨{ g with groups := outer }.add (.group inner.opening inner.items.reverse t), ?_, ?_⟩
  · unfold push close
    rw [opensGroup_of_closes (closesGroup_of_pair hpair), closesGroup_of_pair hpair, hgroups]
    simp only [Bool.false_eq_true, if_false, if_true, hpair]
  · rw [openings_add]
    exact houter

/-- A token that is accepted leaves the delimiters open that it should, and stands last. -/
theorem push_ok {g g' : Growth} {ts : List Token} {t : Token} (hopen : LeavesOpen ts g.openings)
    (h : g.push t = .ok g') : LeavesOpen (ts ++ [t]) g'.openings ∧ g'.flatten = g.flatten ++ [t] := by
  unfold push at h
  split at h
  · rename_i hopens
    obtain rfl := Except.ok.inj h
    refine ⟨.opening hopen hopens .nil, ?_⟩
    rw [flatten, flatten, List.reverse_cons, List.flatMap_append, List.flatMap_singleton,
      List.append_assoc]
    rfl
  rename_i hopens
  split at h
  · obtain ⟨o, hopenings, hpair, hflatten⟩ := close_ok h
    rw [hopenings] at hopen
    exact ⟨hopen.close hpair, hflatten⟩
  · rename_i hcloses
    obtain rfl := Except.ok.inj h
    rw [openings_add, flatten_add]
    exact ⟨hopen.append (.token (Bool.eq_false_iff.mpr hopens) (Bool.eq_false_iff.mpr hcloses) .nil),
      rfl⟩

/-- What is known of a token that is refused. -/
theorem push_error {g : Growth} {t : Token} {failure : Failure} (h : g.push t = .error failure) :
    t.kind.closesGroup = true ∧
      ((g.openings = [] ∧ failure = .unexpectedClosing t.kind t.span) ∨
        ∃ o opened, g.openings = o :: opened ∧ o.kind.isClosedBy t.kind = false ∧
          failure = .mismatchedClosing t.kind t.span o.kind o.span) := by
  unfold push at h
  split at h
  · cases h
  split at h
  · rename_i hcloses
    refine ⟨hcloses, ?_⟩
    unfold close at h
    split at h
    · rename_i hgroups
      obtain rfl := Except.error.inj h
      exact .inl ⟨by rw [openings, hgroups, List.map_nil], rfl⟩
    · rename_i inner outer hgroups
      split at h
      · cases h
      · rename_i hpair
        obtain rfl := Except.error.inj h
        exact .inr ⟨inner.opening, outer.map OpenGroup.opening, by rw [openings, hgroups, List.map_cons],
          Bool.eq_false_iff.mpr hpair, rfl⟩
  · cases h

/-- A closing delimiter is refused where no delimiter is open. -/
theorem push_unexpected {g : Growth} {t : Token} (hopen : g.openings = [])
    (hcloses : t.kind.closesGroup = true) :
    g.push t = .error (.unexpectedClosing t.kind t.span) := by
  have hgroups : g.groups = [] := List.map_eq_nil_iff.mp hopen
  unfold push close
  rw [opensGroup_of_closes hcloses, hcloses, hgroups]
  rfl

/-- A closing delimiter is refused where it does not match the innermost open one. -/
theorem push_mismatched {g : Growth} {t o : Token} {opened : List Token}
    (hopen : g.openings = o :: opened) (hcloses : t.kind.closesGroup = true)
    (hpair : o.kind.isClosedBy t.kind = false) :
    g.push t = .error (.mismatchedClosing t.kind t.span o.kind o.span) := by
  obtain ⟨inner, outer, hgroups, rfl, -⟩ := List.map_eq_cons_iff.mp hopen
  unfold push close
  rw [opensGroup_of_closes hcloses, hcloses, hgroups]
  simp only [Bool.false_eq_true, if_false, if_true, hpair]

-- ---------------------------------------------------------------------------
-- Tokens in a row
-- ---------------------------------------------------------------------------

/-- Tokens that are all accepted leave open what they should, and stand in the tree in order. -/
theorem foldlM_push_ok {ts pre : List Token} {g g' : Growth} (hopen : LeavesOpen pre g.openings)
    (h : ts.foldlM push g = .ok g') :
    LeavesOpen (pre ++ ts) g'.openings ∧ g'.flatten = g.flatten ++ ts := by
  induction ts generalizing pre g with
  | nil =>
    obtain rfl := Except.ok.inj h
    rw [List.append_nil, List.append_nil]
    exact ⟨hopen, rfl⟩
  | cons t ts ih =>
    rw [List.foldlM_cons] at h
    cases hpush : g.push t with
    | error failure =>
      rw [hpush] at h
      cases h
    | ok next =>
      rw [hpush] at h
      obtain ⟨hnext, hflatten⟩ := push_ok hopen hpush
      obtain ⟨hlast, hflatten'⟩ := ih hnext h
      rw [hflatten, List.append_assoc] at hflatten'
      rw [List.append_assoc] at hlast
      exact ⟨hlast, hflatten'⟩

/-- Tokens are refused at the first of them that is refused by what stands before it. -/
theorem foldlM_push_error {ts pre : List Token} {g : Growth} {failure : Failure}
    (hopen : LeavesOpen pre g.openings) (h : ts.foldlM push g = .error failure) :
    ∃ (first : List Token) (t : Token) (rest : List Token) (g' : Growth),
      ts = first ++ t :: rest ∧ LeavesOpen (pre ++ first) g'.openings ∧
        g'.push t = .error failure := by
  induction ts generalizing pre g with
  | nil => cases h
  | cons t ts ih =>
    rw [List.foldlM_cons] at h
    cases hpush : g.push t with
    | error refused =>
      rw [hpush] at h
      obtain rfl := Except.error.inj h
      exact ⟨[], t, ts, g, rfl, by rw [List.append_nil]; exact hopen, hpush⟩
    | ok next =>
      rw [hpush] at h
      obtain ⟨first, u, rest, g', rfl, hopen', hpush'⟩ := ih (push_ok hopen hpush).1 h
      rw [List.append_assoc] at hopen'
      exact ⟨t :: first, u, rest, g', rfl, hopen', hpush'⟩

/-- Balanced tokens can be added anywhere, and leave the same delimiters open. -/
theorem exists_foldlM_push_of_balanced {ts : List Token} (h : Balanced ts) (g : Growth) :
    ∃ g', ts.foldlM push g = .ok g' ∧ g'.openings = g.openings := by
  induction h generalizing g with
  | nil => exact ⟨g, rfl, rfl⟩
  | @token t ts hopens hcloses _ ih =>
    obtain ⟨g', hfold, hopenings⟩ := ih (g.add (.token t))
    refine ⟨g', ?_, by rw [hopenings, openings_add]⟩
    rw [List.foldlM_cons, push_other g hopens hcloses]
    exact hfold
  | @group opening closing inner ts hpair _ _ ih ih' =>
    obtain ⟨g₁, hinner, hopenings⟩ := ih { g with groups := ⟨opening, []⟩ :: g.groups }
    -- the group is still the innermost when its closing delimiter comes
    replace hopenings : g₁.openings = opening :: g.openings := hopenings
    obtain ⟨g₂, hclose, hclosed⟩ := exists_push_closing hopenings hpair
    obtain ⟨g', hrest, hopenings'⟩ := ih' g₂
    refine ⟨g', ?_, hopenings'.trans hclosed⟩
    rw [List.cons_append, List.foldlM_cons, push_opening g (opensGroup_of_pair hpair)]
    show (inner ++ closing :: ts).foldlM push _ = _
    rw [List.foldlM_append, hinner]
    show (closing :: ts).foldlM push g₁ = _
    rw [List.foldlM_cons, hclose]
    exact hrest

/-- Tokens that match every closing delimiter can be added to nothing. -/
theorem exists_foldlM_push {ts opened : List Token} (h : LeavesOpen ts opened) :
    ∃ g, ts.foldlM push empty = .ok g ∧ g.openings = opened := by
  induction h with
  | balanced hts => exact exists_foldlM_push_of_balanced hts empty
  | @opening ts opened inner t _ hopens hinner ih =>
    obtain ⟨g, hfold, hopenings⟩ := ih
    obtain ⟨g', hinner', hopenings'⟩ :=
      exists_foldlM_push_of_balanced hinner { g with groups := ⟨t, []⟩ :: g.groups }
    refine ⟨g', ?_, ?_⟩
    · rw [List.foldlM_append, hfold]
      show (t :: inner).foldlM push g = _
      rw [List.foldlM_cons, push_opening g hopens]
      exact hinner'
    · rw [hopenings', ← hopenings]
      rfl

end Growth

-- ---------------------------------------------------------------------------
-- Trees
-- ---------------------------------------------------------------------------

/-- The first failure of a source in the order of tokens: a closing delimiter that matches
nothing, the failure of the lexer, or, once the source has ended, a delimiter left open. All
delimiters handed out before it are matched or still open. -/
inductive FirstFault (source : List Char) : Failure → Prop where
  /-- A closing delimiter comes where none is open; the failure blames its span. -/
  | unexpected {ts : List Token} {m : Lexer} {t : Token} (hreads : (Lexer.ofText source).Reads ts m)
      (hopen : LeavesOpen ts []) (hnext : m.next.1 = .ok t) (hcloses : t.kind.closesGroup = true) :
      FirstFault source (.unexpectedClosing t.kind t.span)
  /-- A closing delimiter does not match the innermost open one; the failure blames its span. -/
  | mismatched {ts opened : List Token} {m : Lexer} {o t : Token}
      (hreads : (Lexer.ofText source).Reads ts m) (hopen : LeavesOpen ts (o :: opened))
      (hnext : m.next.1 = .ok t) (hcloses : t.kind.closesGroup = true)
      (hpair : o.kind.isClosedBy t.kind = false) :
      FirstFault source (.mismatchedClosing t.kind t.span o.kind o.span)
  /-- The lexer fails; its failure is passed on as it is. -/
  | lexer {ts opened : List Token} {m : Lexer} {failure : Failure}
      (hreads : (Lexer.ofText source).Reads ts m) (hopen : LeavesOpen ts opened)
      (hnext : m.next.1 = .error failure) : FirstFault source failure
  /-- The source ends inside a group; the failure blames the span of the innermost open delimiter.
  -/
  | unclosed {ts opened : List Token} {m : Lexer} {o eof : Token}
      (hreads : (Lexer.ofText source).Reads ts m) (hopen : LeavesOpen ts (o :: opened))
      (hnext : m.next.1 = .ok eof) (hkind : eof.kind = .eof) :
      FirstFault source (.unclosedGroup o.kind o.span)

namespace SourceTree

variable {source : List Char}

theorem ofText?_eq (source : List Char) : ofText? source =
    (do
      let g ← (Lexer.ofText source).stream.tokens.foldlM Growth.push .empty
      let eof ← (Lexer.ofText source).stream.ending
      g.finish eof) := rfl

/-- Adding the tokens of a stream, and asking only then how it ended, is growing call by call: a token
that is refused is refused before the next call, so that it hides how that one fails. -/
theorem grow_eq (g : Growth) (l : Lexer) (hl : l.finished = false) : g.grow l =
    (do
      let g ← l.stream.tokens.foldlM Growth.push g
      let eof ← l.stream.ending
      g.finish eof) := by
  fun_induction Growth.grow g l with
  | case1 g l failure behind hnext =>
    rw [Lexer.stream_of_error (congrArg Prod.fst hnext)]
    rfl
  | case2 g l t behind hnext hkind =>
    rw [Lexer.stream_of_eof (congrArg Prod.fst hnext) hkind]
    rfl
  | case3 g l t behind hnext hkind failure hpush =>
    rw [Lexer.stream_of_next hnext hl hkind, TokenStream.cons, List.foldlM_cons, hpush]
    rfl
  | case4 g l t behind hnext hkind g' hpush ih =>
    have hbehind : behind.finished = false := (Lexer.Reads.snoc .nil hnext hkind).finished hl
    rw [ih hbehind, Lexer.stream_of_next hnext hl hkind, TokenStream.cons, List.foldlM_cons, hpush]
    rfl

/-- The tree of a source is the one grown call by call. -/
theorem ofText?_eq_grow (source : List Char) :
    ofText? source = Growth.empty.grow (Lexer.ofText source) :=
  (grow_eq .empty (Lexer.ofText source) rfl).symm

/-- A tree is made of all the tokens, in order, and they are balanced. -/
theorem balanced_of_ofText? {tree : SourceTree} (h : ofText? source = .ok tree) :
    Balanced tree.flatten ∧ tokens source = .ok tree.flatten := by
  obtain ⟨m, hreads, hnext, hkind⟩ := (Lexer.ofText source).exists_reads_stream rfl
  rw [ofText?_eq] at h
  cases hfold : (Lexer.ofText source).stream.tokens.foldlM Growth.push .empty with
  | error failure =>
    rw [hfold] at h
    cases h
  | ok g =>
    rw [hfold] at h
    have hempty : LeavesOpen [] Growth.empty.openings := .balanced .nil
    obtain ⟨hopen, hflatten⟩ := Growth.foldlM_push_ok hempty hfold
    rw [List.nil_append] at hopen
    rw [Growth.flatten_empty, List.nil_append] at hflatten
    cases hending : (Lexer.ofText source).stream.ending with
    | error failure =>
      rw [hending] at h
      cases h
    | ok eof =>
      rw [hending] at h
      replace h : g.finish eof = .ok tree := h
      unfold Growth.finish at h
      split at h
      · rename_i hgroups
        obtain rfl := Except.ok.inj h
        have hall : flatten ⟨g.roots.reverse, eof⟩ = (Lexer.ofText source).stream.tokens ++ [eof] := by
          rw [← hflatten, Growth.flatten, hgroups, List.reverse_nil, List.flatMap_nil, List.append_nil]
          rfl
        rw [hall]
        refine ⟨?_, ?_⟩
        · rw [Growth.openings, hgroups, List.map_nil] at hopen
          refine hopen.balanced_of_nil.append (.token ?_ ?_ .nil)
          all_goals
            rw [hkind eof hending]
            rfl
        · unfold tokens TokenStream.ofText TokenStream.toExcept
          rw [hending]
          rfl
      · cases h

/-- Balanced tokens make a tree. -/
theorem exists_ofText?_of_balanced {ts : List Token} (h : tokens source = .ok ts)
    (hbalanced : Balanced ts) : ∃ tree, ofText? source = .ok tree := by
  obtain ⟨init, eof, m, behind, rfl, hreads, hnext, hkind⟩ := Lexer.exists_reads_of_tokens h
  obtain ⟨g', hfold, hopenings⟩ := Growth.exists_foldlM_push_of_balanced hbalanced .empty
  rw [List.foldlM_append] at hfold
  cases hinit : init.foldlM Growth.push .empty with
  | error failure =>
    rw [hinit] at hfold
    cases hfold
  | ok g =>
    rw [hinit] at hfold
    -- the last token is no delimiter, so that nothing was open before it either
    have hpush : g.push eof = .ok (g.add (.token eof)) :=
      g.push_other (by rw [hkind]; rfl) (by rw [hkind]; rfl)
    replace hfold : [eof].foldlM Growth.push g = .ok g' := hfold
    rw [List.foldlM_cons, hpush] at hfold
    obtain rfl := Except.ok.inj hfold
    rw [Growth.openings_add] at hopenings
    have hgroups : g.groups = [] := List.map_eq_nil_iff.mp hopenings
    refine ⟨⟨g.roots.reverse, eof⟩, ?_⟩
    rw [ofText?_eq, Lexer.stream_of_reads hreads rfl,
      Lexer.stream_of_eof (congrArg Prod.fst hnext) hkind, List.append_nil, hinit]
    show g.finish eof = _
    unfold Growth.finish
    rw [hgroups]

/-- A source that makes no tree fails with its first fault. -/
theorem firstFault_of_ofText? {failure : Failure} (h : ofText? source = .error failure) :
    FirstFault source failure := by
  obtain ⟨m, hreads, hnext, hkind⟩ := (Lexer.ofText source).exists_reads_stream rfl
  have hempty : LeavesOpen [] Growth.empty.openings := .balanced .nil
  rw [ofText?_eq] at h
  cases hfold : (Lexer.ofText source).stream.tokens.foldlM Growth.push .empty with
  | error refused =>
    rw [hfold] at h
    obtain rfl := Except.error.inj h
    -- the token that was refused is what the calls before it lead to
    obtain ⟨first, t, rest, g, hts, hopen, hpush⟩ := Growth.foldlM_push_error hempty hfold
    obtain ⟨k, behind, hfirst, hk, -⟩ := hreads.exists_next hts
    have hk' : k.next.1 = .ok t := congrArg Prod.fst hk
    rw [List.nil_append] at hopen
    obtain ⟨hcloses, ⟨hnone, rfl⟩ | ⟨o, opened, hsome, hpair, rfl⟩⟩ := Growth.push_error hpush
    · rw [hnone] at hopen
      exact .unexpected hfirst hopen hk' hcloses
    · rw [hsome] at hopen
      exact .mismatched hfirst hopen hk' hcloses hpair
  | ok g =>
    rw [hfold] at h
    obtain ⟨hopen, -⟩ := Growth.foldlM_push_ok hempty hfold
    rw [List.nil_append] at hopen
    cases hending : (Lexer.ofText source).stream.ending with
    | error stop =>
      rw [hending] at h hnext
      obtain rfl := Except.error.inj h
      exact .lexer hreads hopen hnext
    | ok eof =>
      rw [hending] at h hnext
      replace h : g.finish eof = .error failure := h
      unfold Growth.finish at h
      split at h
      · cases h
      · rename_i inner outer hgroups
        obtain rfl := Except.error.inj h
        rw [Growth.openings, hgroups, List.map_cons] at hopen
        exact .unclosed hreads hopen hnext (hkind eof hending)

/-- A delimiter that is refused where it comes makes the whole source fail, whatever comes behind.
-/
private theorem ofText?_of_refused {ts : List Token} {m : Lexer} {t : Token} {g : Growth}
    {failure : Failure} (hreads : (Lexer.ofText source).Reads ts m) (hnext : m.next.1 = .ok t)
    (hcloses : t.kind.closesGroup = true) (hfold : ts.foldlM Growth.push .empty = .ok g)
    (hpush : g.push t = .error failure) : ofText? source = .error failure := by
  have hkind : t.kind ≠ .eof := by
    intro hkind
    rw [hkind] at hcloses
    cases hcloses
  have hmore : (Lexer.ofText source).Reads (ts ++ [t]) m.next.2 :=
    hreads.snoc (Prod.ext hnext rfl) hkind
  rw [ofText?_eq, Lexer.stream_of_reads hmore rfl, List.append_assoc, List.foldlM_append, hfold]
  show (do
    let g ← (t :: m.next.2.stream.tokens).foldlM Growth.push g
    let eof ← m.next.2.stream.ending
    g.finish eof) = _
  rw [List.foldlM_cons, hpush]
  rfl

/-- A source with a fault makes no tree. -/
theorem ofText?_of_firstFault {failure : Failure} (h : FirstFault source failure) :
    ofText? source = .error failure := by
  cases h with
  | unexpected hreads hopen hnext hcloses =>
    obtain ⟨g, hfold, hopenings⟩ := Growth.exists_foldlM_push hopen
    exact ofText?_of_refused hreads hnext hcloses hfold (Growth.push_unexpected hopenings hcloses)
  | mismatched hreads hopen hnext hcloses hpair =>
    obtain ⟨g, hfold, hopenings⟩ := Growth.exists_foldlM_push hopen
    exact ofText?_of_refused hreads hnext hcloses hfold
      (Growth.push_mismatched hopenings hcloses hpair)
  | lexer hreads hopen hnext =>
    obtain ⟨g, hfold, -⟩ := Growth.exists_foldlM_push hopen
    rw [ofText?_eq, Lexer.stream_of_reads hreads rfl, Lexer.stream_of_error hnext, List.append_nil,
      hfold]
    rfl
  | unclosed hreads hopen hnext hkind =>
    obtain ⟨g, hfold, hopenings⟩ := Growth.exists_foldlM_push hopen
    obtain ⟨inner, outer, hgroups, hinner, -⟩ := List.map_eq_cons_iff.mp hopenings
    rw [ofText?_eq, Lexer.stream_of_reads hreads rfl, Lexer.stream_of_eof hnext hkind, List.append_nil,
      hfold]
    show g.finish _ = _
    unfold Growth.finish
    rw [hgroups]
    simp only [hinner]

end SourceTree

/-- The text of a source is read back from its bytes, so that drawing fails only for want of
tokens. -/
theorem highlightWith_utf8Encode (tokenizer : Tokenizer) (source : List Char) :
    highlightWith tokenizer source.utf8Encode = (tokenizer source).map drawTokens := by
  rw [highlightWith, sourceText, Utf8.decode_encode]
  show (do let ts ← tokenizer source; pure (drawTokens ts)) = _
  cases tokenizer source <;> rfl

/-- **The tree agrees with the flat list of tokens.** A source makes a tree exactly when it has
tokens and their delimiters are balanced. The walk through the tree gives the tokens back, so that
the source is drawn alike with the tree and without it. A source that makes no tree fails with its
first fault in the order of tokens, and with no other. -/
theorem tree_agrees_with_tokens (source : List Char) :
    ((∃ tree, SourceTree.ofText? source = .ok tree) ↔
      ∃ ts, tokens source = .ok ts ∧ Balanced ts) ∧
    (∀ tree, SourceTree.ofText? source = .ok tree →
      tokens source = .ok tree.walk ∧
      highlight source.utf8Encode = highlightFlat source.utf8Encode) ∧
    (∀ failure, SourceTree.ofText? source = .error failure ↔ FirstFault source failure) := by
  refine ⟨⟨?_, ?_⟩, ?_, ?_⟩
  · rintro ⟨tree, h⟩
    obtain ⟨hbalanced, htokens⟩ := SourceTree.balanced_of_ofText? h
    exact ⟨tree.flatten, htokens, hbalanced⟩
  · rintro ⟨ts, htokens, hbalanced⟩
    exact SourceTree.exists_ofText?_of_balanced htokens hbalanced
  · intro tree h
    have htokens : tokens source = .ok tree.walk := by
      rw [tree.walk_eq_flatten]
      exact (SourceTree.balanced_of_ofText? h).2
    have htree : treeTokens source = .ok tree.walk := by
      rw [treeTokens, h]
      rfl
    refine ⟨htokens, ?_⟩
    rw [highlight, highlightFlat, highlightWith_utf8Encode, highlightWith_utf8Encode, htree, htokens]
  · intro failure
    exact ⟨SourceTree.firstFault_of_ofText?, SourceTree.ofText?_of_firstFault⟩

/-- The closing bracket is at fault, not the parenthesis before it that is never closed, nor the literal
behind it that never ends. -/
theorem tree_agrees_with_tokens_mismatched :
    ∃ failure, SourceTree.ofText? "(]\"".toList = .error failure ∧
      FirstFault "(]\"".toList failure ∧ failure.span? = some ⟨⟨0, 1, 1⟩, ⟨0, 2, 2⟩⟩ := by
  have hspan : (match SourceTree.ofText? "(]\"".toList with
      | .ok _ => none
      | .error failure => failure.span?) = some ⟨⟨0, 1, 1⟩, ⟨0, 2, 2⟩⟩ := by
    decide +kernel
  cases htree : SourceTree.ofText? "(]\"".toList with
  | ok tree =>
    rw [htree] at hspan
    cases hspan
  | error failure =>
    rw [htree] at hspan
    exact ⟨failure, rfl, ((tree_agrees_with_tokens _).2.2 failure).mp htree, hspan⟩

end SwiftColoring
