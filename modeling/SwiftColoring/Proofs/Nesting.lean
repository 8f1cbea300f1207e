import SwiftColoring.Proofs.Growth
import SwiftColoring.Proofs.Literals

/-!
# Literals in the tree

A tree is grown from delimiters alone, and its rule would let an ordinary parenthesis be closed by
the end of an interpolation, and an interpolation by an ordinary parenthesis. Neither happens. The
tokens of a source are generated by the grammar of literals, which counts the parentheses of every
interpolation, and this module follows that grammar through the growth of a tree: wherever code
goes, the groups left open above it hold as many parentheses as the code leaves open.

* `SplitsIntoRuns` — lists of items in which literals are runs of their own.
* `Growth.OverCode` — a tree in growth after some code. This is the invariant.
* `Growth.OverCode.push` — one plain token of code keeps it.
* `growsCode_of_isCode`, `addsRun_of_isLiteral` — what code and a literal add to a tree, by the
  grammar.
* `literals_nest_in_tree` — the whole statement.
-/

namespace SwiftColoring

-- ---------------------------------------------------------------------------
-- Lists of items
-- ---------------------------------------------------------------------------

/-- An item that is no part of a literal: a token that is neither a delimiter nor found in literals
only, or a group that is closed as it was opened, and not by the end of an interpolation. -/
def Node.isPlain : Node → Bool
  | .token t => t.kind.isPlain && !t.kind.opensGroup && !t.kind.closesGroup
  | .group opening _ closing =>
    opening.kind.isClosedBy closing.kind && closing.kind != .interpolationEnd

/-- What stands between the quotes of a literal; the flag says whether a segment comes last. The
group of an interpolation stands directly behind its backslash. -/
inductive IsRunBody : Bool → List Node → Prop where
  | nil : IsRunBody false []
  | segment {body : List Node} {t : Token} (hbody : IsRunBody false body)
      (hkind : t.kind = .stringSegment) : IsRunBody true (body ++ [.token t])
  | interpolation {body items : List Node} {backslash paren anchor : Token} {hasText : Bool}
      (hbody : IsRunBody hasText body) (hbackslash : backslash.kind = .backslash)
      (hparen : paren.kind = .leftParen) (hanchor : anchor.kind = .interpolationEnd) :
      IsRunBody false (body ++ [.token backslash, .group paren items anchor])

/-- The items of a literal, between two quotes of one kind. -/
inductive IsRun : List Node → Prop where
  | quoted {opening closing : Token} {body : List Node} {multiline hasText : Bool}
      (hopening : opening.kind = Lexer.quoteKind multiline) (hbody : IsRunBody hasText body)
      (hclosing : closing.kind = Lexer.quoteKind multiline) :
      IsRun (.token opening :: body ++ [.token closing])

/-- Items that are plain or belong to the run of a literal. -/
inductive SplitsIntoRuns : List Node → Prop where
  | nil : SplitsIntoRuns []
  | plain {items : List Node} {node : Node} (hitems : SplitsIntoRuns items)
      (hplain : node.isPlain = true) : SplitsIntoRuns (items ++ [node])
  | run {items run : List Node} (hitems : SplitsIntoRuns items) (hrun : IsRun run) :
      SplitsIntoRuns (items ++ run)

/-- The groups among the nodes hold items that split into runs, at every depth. -/
def HoldRuns (nodes : List Node) : Prop := ∀ items ∈ Node.itemListsAll nodes, SplitsIntoRuns items

/-- The items split into runs, and so do those of the groups among them. -/
structure WellNested (items : List Node) : Prop where
  splits : SplitsIntoRuns items
  inner : HoldRuns items

theorem HoldRuns.append {a b : List Node} (ha : HoldRuns a) (hb : HoldRuns b) : HoldRuns (a ++ b) := by
  intro items hmem
  rw [Node.itemListsAll_append] at hmem
  rcases List.mem_append.mp hmem with hmem | hmem
  · exact ha items hmem
  · exact hb items hmem

theorem HoldRuns.token (t : Token) : HoldRuns [.token t] := by
  intro items hmem
  rw [Node.itemListsAll_token] at hmem
  cases hmem

theorem WellNested.group {items : List Node} (h : WellNested items) (opening closing : Token) :
    HoldRuns [.group opening items closing] := by
  intro items' hmem
  rw [Node.itemListsAll_group] at hmem
  rcases List.mem_cons.mp hmem with rfl | hmem
  · exact h.splits
  · exact h.inner items' hmem

theorem WellNested.nil : WellNested [] where
  splits := .nil
  inner items hmem := by
    rw [Node.itemListsAll_nil] at hmem
    cases hmem

theorem WellNested.plain {items : List Node} {node : Node} (h : WellNested items)
    (hplain : node.isPlain = true) (hinner : HoldRuns [node]) : WellNested (items ++ [node]) :=
  ⟨h.splits.plain hplain, h.inner.append hinner⟩

theorem WellNested.run {items run : List Node} (h : WellNested items) (hrun : IsRun run)
    (hinner : HoldRuns run) : WellNested (items ++ run) :=
  ⟨h.splits.run hrun, h.inner.append hinner⟩

-- ---------------------------------------------------------------------------
-- A tree in growth after some code
-- ---------------------------------------------------------------------------

/-- What an opening delimiter adds to the number of open parentheses. -/
def Token.parenCount (t : Token) : Nat := kindCount .leftParen [t]

namespace Growth

/-- Code has been grown onto the base: items where it began, and groups that it has left open, so
many of them parentheses. -/
inductive OverCode (base : Growth) : Nat → Growth → Prop where
  | level {items : List Node} (hitems : WellNested items) : OverCode base 0 (base.addAll items)
  | opened {depth : Nat} {g : Growth} {t : Token} {items : List Node} (h : OverCode base depth g)
      (hitems : WellNested items) : OverCode base (depth + t.parenCount) ((g.opened t).addAll items)

variable {base g g' : Growth} {depth : Nat} {t : Token}

theorem OverCode.addPlain {node : Node} (h : OverCode base depth g) (hplain : node.isPlain = true)
    (hinner : HoldRuns [node]) : OverCode base depth (g.add node) := by
  cases h with
  | level hitems =>
    rw [← addAll_concat]
    exact .level (hitems.plain hplain hinner)
  | opened h hitems =>
    rw [← addAll_concat]
    exact .opened h (hitems.plain hplain hinner)

theorem OverCode.addRun {run : List Node} (h : OverCode base depth g) (hrun : IsRun run)
    (hinner : HoldRuns run) : OverCode base depth (g.addAll run) := by
  cases h with
  | level hitems =>
    rw [addAll_addAll]
    exact .level (hitems.run hrun hinner)
  | opened h hitems =>
    rw [addAll_addAll]
    exact .opened h (hitems.run hrun hinner)

/-- The group of a parenthesis is the innermost, and the code in it closes no more parentheses than
it opens; or no group is open at all. -/
inductive IsCodeBase (own : List Token) : Growth → Prop where
  | root : IsCodeBase own empty
  | group {g : Growth} {paren : Token} (hparen : paren.kind = .leftParen)
      (hclosed : ∀ first, first <+: own → kindCount .rightParen first ≤ kindCount .leftParen first) :
      IsCodeBase own (g.opened paren)

theorem IsCodeBase.of_prefix {own own' : List Token} (h : IsCodeBase own' base) (hpre : own <+: own') :
    IsCodeBase own base := by
  cases h with
  | root => exact .root
  | group hparen hclosed => exact .group hparen fun first hfirst => hclosed first (hfirst.trans hpre)

end Growth

/-- In code, a parenthesis is closed by an ordinary one, and all else as it was opened. -/
theorem closing_cases {opening closing : Kind} (hpair : opening.isClosedBy closing = true)
    (hplain : closing.isPlain = true) :
    (opening = .leftParen ∧ closing = .rightParen) ∨
      (opening ≠ .leftParen ∧ closing ≠ .rightParen ∧ closing ≠ .leftParen) := by
  unfold Kind.isClosedBy at hpair
  split at hpair
  · exact .inl ⟨rfl, rfl⟩
  · cases hplain
  · exact .inr ⟨by decide, by decide, by decide⟩
  · exact .inr ⟨by decide, by decide, by decide⟩
  · cases hpair

namespace Growth

variable {base g g' : Growth} {depth : Nat} {t : Token}

/-- A plain token keeps a tree over code, and moves the number of open parentheses by what it is. -/
theorem OverCode.push {own : List Token} (h : OverCode base depth g)
    (hcount : kindCount .leftParen own = kindCount .rightParen own + depth)
    (hbase : IsCodeBase (own ++ [t]) base) (hplain : t.kind.isPlain = true) (hpush : g.push t = .ok g') :
    ∃ depth', OverCode base depth' g' ∧
      kindCount .leftParen (own ++ [t]) = kindCount .rightParen (own ++ [t]) + depth' := by
  rw [kindCount_append, kindCount_append, kindCount_singleton .rightParen]
  cases push_cases hpush with
  | opening hopens =>
    refine ⟨_, .opened (t := t) h .nil, ?_⟩
    have hright : t.kind ≠ .rightParen := by
      intro hkind
      rw [hkind] at hopens
      cases hopens
    rw [if_neg hright, Token.parenCount]
    omega
  | token hopens hcloses =>
    have hleft : t.kind ≠ .leftParen := by
      intro hkind
      rw [hkind] at hopens
      cases hopens
    have hright : t.kind ≠ .rightParen := by
      intro hkind
      rw [hkind] at hcloses
      cases hcloses
    refine ⟨depth, h.addPlain ?_ (.token t), ?_⟩
    · rw [Node.isPlain, hplain, hopens, hcloses]
      rfl
    · rw [kindCount_singleton, if_neg hleft, if_neg hright]
      omega
  | @closing inner outer hgroups hpair =>
    have hnotEnd : (t.kind != .interpolationEnd) = true := by
      refine bne_iff_ne.mpr fun hkind => ?_
      rw [hkind] at hplain
      cases hplain
    cases h with
    | @opened depth g opening items h hitems =>
      -- the group was opened by this code, and is an item of what it was opened in
      rw [addAll_opened] at hgroups
      obtain ⟨rfl, rfl⟩ := List.cons.inj hgroups
      refine ⟨depth, ?_, ?_⟩
      · rw [addAll_opened]
        simp only [List.reverse_reverse]
        refine h.addPlain ?_ (hitems.group _ _)
        rw [Node.isPlain, hpair, hnotEnd]
        rfl
      · rw [Token.parenCount, kindCount_singleton] at hcount
        rw [kindCount_singleton]
        rcases closing_cases hpair hplain with ⟨hleft, hright⟩ | ⟨hleft, hright, hleft'⟩
        · rw [if_pos hleft] at hcount
          rw [hright, if_pos rfl, if_neg (by decide)]
          omega
        · rw [if_neg hleft] at hcount
          rw [if_neg hright, if_neg hleft']
          omega
    | level hitems =>
      cases hbase with
      | root =>
        rw [addAll_empty] at hgroups
        cases hgroups
      | group hparen hclosed =>
        -- the parenthesis around the code would be closed by one that the code has not opened
        rw [addAll_opened] at hgroups
        obtain ⟨rfl, -⟩ := List.cons.inj hgroups
        have hle := hclosed _ (List.prefix_refl _)
        rw [kindCount_append, kindCount_append, kindCount_singleton, kindCount_singleton] at hle
        rcases closing_cases hpair hplain with ⟨-, hright⟩ | ⟨hleft, -⟩
        · rw [hright, if_pos rfl, if_neg (by decide)] at hle
          omega
        · exact absurd hparen hleft

end Growth

-- ---------------------------------------------------------------------------
-- Literals and code, by the grammar
-- ---------------------------------------------------------------------------

/-- The tokens add a list of nodes to the innermost group, whatever the tree. -/
def AddsRun (P : List Node → Prop) (ts : List Token) : Prop :=
  ∀ g g' : Growth, ts.foldlM Growth.push g = .ok g' →
    ∃ nodes, P nodes ∧ HoldRuns nodes ∧ g' = g.addAll nodes

/-- Code keeps a tree over code. -/
def GrowsCode (ts own : List Token) : Prop :=
  ∀ base g : Growth, Growth.IsCodeBase own base → ts.foldlM Growth.push base = .ok g →
    ∃ depth, Growth.OverCode base depth g ∧
      kindCount .leftParen own = kindCount .rightParen own + depth

namespace GrowsCode

theorem nil : GrowsCode [] [] := by
  intro base g hbase hfold
  obtain rfl := Except.ok.inj hfold
  exact ⟨0, .level .nil, rfl⟩

theorem plain {ts own : List Token} {t : Token} (h : GrowsCode ts own)
    (hplain : t.kind.isPlain = true) : GrowsCode (ts ++ [t]) (own ++ [t]) := by
  intro base g hbase hfold
  obtain ⟨m, hts, ht⟩ := Growth.foldlM_append_ok hfold
  obtain ⟨depth, hover, hcount⟩ := h base m (hbase.of_prefix (List.prefix_append ..)) hts
  exact hover.push hcount hbase hplain (Growth.foldlM_singleton_ok ht)

theorem literal {ts own us : List Token} (h : GrowsCode ts own) (hrun : AddsRun IsRun us) :
    GrowsCode (ts ++ us) own := by
  intro base g hbase hfold
  obtain ⟨m, hts, hus⟩ := Growth.foldlM_append_ok hfold
  obtain ⟨depth, hover, hcount⟩ := h base m hbase hts
  obtain ⟨run, hrun, hinner, rfl⟩ := hrun m g hus
  exact ⟨depth, hover.addRun hrun hinner, hcount⟩

end GrowsCode

namespace AddsRun

variable {ts : List Token} {t : Token}

theorem nil : AddsRun (IsRunBody false) [] := by
  intro g g' hfold
  obtain rfl := Except.ok.inj hfold
  exact ⟨[], .nil, WellNested.nil.inner, rfl⟩

theorem segment (h : AddsRun (IsRunBody false) ts) (hkind : t.kind = .stringSegment) :
    AddsRun (IsRunBody true) (ts ++ [t]) := by
  intro g g' hfold
  obtain ⟨m, hts, ht⟩ := Growth.foldlM_append_ok hfold
  obtain ⟨body, hbody, hinner, rfl⟩ := h g m hts
  obtain rfl := Growth.eq_add_of_push (Growth.foldlM_singleton_ok ht) (by rw [hkind]; rfl)
    (by rw [hkind]; rfl)
  exact ⟨body ++ [.token t], .segment hbody hkind, hinner.append (.token t),
    (Growth.addAll_concat ..).symm⟩

/-- The end of an interpolation closes its parenthesis: no other is open in its code. -/
theorem interpolation {inner own : List Token} {backslash paren anchor : Token} {hasText : Bool}
    (h : AddsRun (IsRunBody hasText) ts) (hbackslash : backslash.kind = .backslash)
    (hparen : paren.kind = .leftParen) (hcode : GrowsCode inner own) (hbalanced : ParensOpen 0 own)
    (hanchor : anchor.kind = .interpolationEnd) :
    AddsRun (IsRunBody false) (ts ++ (backslash :: paren :: inner ++ [anchor])) := by
  intro g g' hfold
  obtain ⟨m, hts, hrest⟩ := Growth.foldlM_append_ok hfold
  obtain ⟨body, hbody, hinner, rfl⟩ := h g m hts
  obtain ⟨m₁, hpush, hrest⟩ := Growth.foldlM_cons_ok hrest
  obtain rfl := Growth.eq_add_of_push hpush (by rw [hbackslash]; rfl) (by rw [hbackslash]; rfl)
  obtain ⟨m₂, hpush, hrest⟩ := Growth.foldlM_cons_ok hrest
  obtain rfl := Growth.eq_opened_of_push hpush (by rw [hparen]; rfl)
  obtain ⟨m₃, hinnerFold, hlast⟩ := Growth.foldlM_append_ok hrest
  obtain ⟨depth, hover, hcount⟩ := hcode _ m₃ (.group hparen hbalanced.closed_le) hinnerFold
  have hdepth : depth = 0 := by
    have hopened := hbalanced.opened_eq
    omega
  cases Growth.push_cases (Growth.foldlM_singleton_ok hlast) with
  | opening hopens =>
    rw [hanchor] at hopens
    cases hopens
  | token _ hcloses =>
    rw [hanchor] at hcloses
    cases hcloses
  | @closing innermost outer hgroups hpair =>
    have hleft : innermost.opening.kind = .leftParen := by
      rw [hanchor] at hpair
      unfold Kind.isClosedBy at hpair
      split at hpair <;> simp_all
    cases hover with
    | opened hover hitems =>
      -- the innermost group would hold a parenthesis that the code has left open
      rw [Growth.addAll_opened] at hgroups
      obtain ⟨rfl, -⟩ := List.cons.inj hgroups
      rw [Token.parenCount, kindCount_singleton, if_pos hleft] at hdepth
      omega
    | @level items hitems =>
      rw [Growth.addAll_opened] at hgroups
      obtain ⟨rfl, rfl⟩ := List.cons.inj hgroups
      have hboth : HoldRuns [.token backslash, .group paren items anchor] :=
        HoldRuns.append (.token backslash) (hitems.group paren anchor)
      refine ⟨body ++ [.token backslash, .group paren items anchor],
        .interpolation hbody hbackslash hparen hanchor, hinner.append hboth, ?_⟩
      rw [Growth.addAll_opened, ← Growth.addAll_addAll]
      simp only [List.reverse_reverse]
      rfl

theorem quoted {opening closing : Token} {body : List Token} {multiline hasText : Bool}
    (hopening : opening.kind = Lexer.quoteKind multiline) (h : AddsRun (IsRunBody hasText) body)
    (hclosing : closing.kind = Lexer.quoteKind multiline) :
    AddsRun IsRun (opening :: body ++ [closing]) := by
  have hquote : ∀ t : Token, t.kind = Lexer.quoteKind multiline →
      t.kind.opensGroup = false ∧ t.kind.closesGroup = false := by
    intro t hkind
    rw [hkind]
    cases multiline <;> exact ⟨rfl, rfl⟩
  intro g g' hfold
  obtain ⟨m, hpush, hrest⟩ := Growth.foldlM_cons_ok hfold
  obtain rfl := Growth.eq_add_of_push hpush (hquote opening hopening).1 (hquote opening hopening).2
  obtain ⟨m₁, hbodyFold, hlast⟩ := Growth.foldlM_append_ok hrest
  obtain ⟨nodes, hbody, hinner, rfl⟩ := h _ m₁ hbodyFold
  obtain rfl := Growth.eq_add_of_push (Growth.foldlM_singleton_ok hlast) (hquote closing hclosing).1
    (hquote closing hclosing).2
  refine ⟨.token opening :: nodes ++ [.token closing], .quoted hopening hbody hclosing, ?_, ?_⟩
  · exact (HoldRuns.append (.token opening) hinner).append (.token closing)
  · rw [← Growth.addAll_addAll]
    rfl

end AddsRun

mutual

theorem growsCode_of_isCode : ∀ {ts own : List Token}, IsCode ts own → GrowsCode ts own
  | _, _, .nil => .nil
  | _, _, .plain hcode hplain => (growsCode_of_isCode hcode).plain hplain
  | _, _, .literal hcode hliteral =>
    (growsCode_of_isCode hcode).literal (addsRun_of_isLiteral hliteral)

theorem addsRun_of_isLiteral : ∀ {ts : List Token}, IsLiteral ts → AddsRun IsRun ts
  | _, .quoted hopening _ hbody hclosing _ =>
    .quoted hopening (addsRun_of_isLiteralBody hbody) hclosing

theorem addsRun_of_isLiteralBody : ∀ {hasText : Bool} {ts : List Token},
    IsLiteralBody hasText ts → AddsRun (IsRunBody hasText) ts
  | _, _, .nil => .nil
  | _, _, .segment hbody hkind _ => (addsRun_of_isLiteralBody hbody).segment hkind
  | _, _, .interpolation hbody hbackslash _ hparen _ hinner hbalanced hanchor _ =>
    (addsRun_of_isLiteralBody hbody).interpolation hbackslash hparen (growsCode_of_isCode hinner)
      hbalanced hanchor

end

/-- What calls hand out up to the end of the source is code, since the source ends in plain code only.
-/
theorem exists_isCode_of_reads {source : List Char} {ts : List Token} {m behind : Lexer} {eof : Token}
    (hreads : (Lexer.ofText source).Reads ts m) (hnext : m.next = (.ok eof, behind))
    (hkind : eof.kind = .eof) : ∃ own, IsCode ts own := by
  obtain ⟨hasText, hreading, -⟩ := hreads.hasRead
  obtain ⟨here, x, hcut⟩ := Lexer.next_cut hnext
  refine hreading.exists_code ?_
  rw [← hcut.here_contexts]
  exact (Lexer.at_end_of_kind_eof hcut.lexeme_eq (hcut.kind_eq.symm.trans hkind)).1

/-- **Literals and groups nest in the tree.** Every list of items of a tree, that outside all groups
and that of each group, splits into plain items and the runs of literals. A run stands between two
quotes of one kind and holds segments and, each behind its backslash, groups opened by a parenthesis
and closed by the end of an interpolation. Neither quotes and segments nor such groups occur
anywhere else, and every other group is closed as it was opened. -/
theorem literals_nest_in_tree {source : List Char} {tree : SourceTree}
    (h : SourceTree.ofText? source = .ok tree) : ∀ items ∈ tree.itemLists, SplitsIntoRuns items := by
  obtain ⟨ts, m, behind, g, hreads, hnext, hkind, hfold, hgroups, hroots⟩ := tree.exists_growth h
  obtain ⟨own, hcode⟩ := exists_isCode_of_reads hreads hnext hkind
  obtain ⟨depth, hover, -⟩ := growsCode_of_isCode hcode .empty g .root hfold
  cases hover with
  | opened =>
    rw [Growth.addAll_opened] at hgroups
    cases hgroups
  | @level nodes hitems =>
    rw [Growth.addAll_empty, List.reverse_reverse] at hroots
    subst hroots
    intro items hmem
    rcases List.mem_cons.mp hmem with rfl | hmem
    · exact hitems.splits
    · exact hitems.inner items hmem

/-- A literal in the code of an interpolation, between parentheses that close as they were opened. The
lists of items are those of the source, of the interpolation and of the parentheses in it. -/
theorem literals_nest_in_tree_nested :
    ∃ tree, SourceTree.ofText? "\"a\\(f(\"b\"))\"".toList = .ok tree ∧
      (∀ items ∈ tree.itemLists, SplitsIntoRuns items) ∧
      tree.itemLists.map List.length = [5, 2, 3] := by
  have hlengths : (SourceTree.ofText? "\"a\\(f(\"b\"))\"".toList).toOption.map
      (fun tree => tree.itemLists.map List.length) = some [5, 2, 3] := by
    decide +kernel
  obtain ⟨tree, htree, hlengths⟩ := exists_ok_of_toOption_map hlengths
  exact ⟨tree, htree, literals_nest_in_tree htree, hlengths⟩

end SwiftColoring
