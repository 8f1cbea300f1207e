import SwiftColoring.Proofs.AngleStep
import SwiftColoring.Proofs.Growth
import SwiftColoring.Proofs.Literals

/-!
# Angle brackets in the tree

A tree knows nothing of angle brackets: they are items like any other. Where the text behind every
opening one nests, parentheses and square brackets among generic arguments open and close groups in
step with the arguments, and so every list of items in the tree holds as many closing angle brackets
as opening ones. Where it does not nest, they need not balance: an operator takes an opening bracket
that the search has counted, and leaves the closing one.

* `AnglesOpen` — tokens that leave so many angle brackets open.
* `Growth.AnglesStand` — the angle brackets in a tree in growth are those that are open. This is the
  invariant.
* `Growth.AnglesStand.push` — a token that does a step keeps it.
* `angle_brackets_balance_in_tree` — the whole statement.
-/

namespace SwiftColoring

open GenericArguments

-- ---------------------------------------------------------------------------
-- Open angle brackets
-- ---------------------------------------------------------------------------

/-- Of the angle brackets among the tokens, so many are still open, and none is closed before it is
opened. -/
structure AnglesOpen (depth : Nat) (ts : List Token) : Prop where
  closed_le : ∀ first, first <+: ts → kindCount .rightAngle first ≤ kindCount .leftAngle first
  opened_eq : kindCount .leftAngle ts = kindCount .rightAngle ts + depth

theorem AnglesOpen.nil : AnglesOpen 0 [] where
  closed_le first hfirst := by rw [List.prefix_nil.mp hfirst]; exact Nat.le_refl _
  opened_eq := rfl

/-- One more token moves the number of open angle brackets by what it is itself. -/
theorem AnglesOpen.concat {depth depth' : Nat} {ts : List Token} {t : Token} (h : AnglesOpen depth ts)
    (ht : kindCount .leftAngle [t] + depth = kindCount .rightAngle [t] + depth') :
    AnglesOpen depth' (ts ++ [t]) := by
  have hopened := h.opened_eq
  refine ⟨closed_le_concat h.closed_le ?_, ?_⟩
  all_goals
    rw [kindCount_append, kindCount_append]
    omega

/-- How many of the brackets, innermost first, are angle brackets in one group: those of group `0` are in
the innermost one, and every bracket of another sort has opened a group. -/
def anglesInGroup : List Char → Nat → Nat
  | [], _ => 0
  | '<' :: ks, 0 => anglesInGroup ks 0 + 1
  | '<' :: ks, i + 1 => anglesInGroup ks (i + 1)
  | _ :: _, 0 => 0
  | _ :: ks, i + 1 => anglesInGroup ks i

theorem anglesInGroup_cons {c : Char} (hc : c ≠ '<') (ks : List Char) :
    anglesInGroup (c :: ks) 0 = 0 ∧ ∀ i, anglesInGroup (c :: ks) (i + 1) = anglesInGroup ks i := by
  constructor
  · rw [anglesInGroup]
    simpa using hc
  · intro i
    rw [anglesInGroup]
    simpa using hc

namespace AngleStep

variable {kind : Kind} {ks ks' : List Char}

/-- An opening delimiter opens a group in which no angle bracket is open yet. -/
theorem of_opensGroup (h : AngleStep kind ks ks') (hopens : kind.opensGroup = true) :
    anglesInGroup ks' 0 = 0 ∧ ∀ i, anglesInGroup ks' (i + 1) = anglesInGroup ks i := by
  cases h with
  | outside => exact ⟨rfl, fun _ => rfl⟩
  | opening _ hc => exact anglesInGroup_cons hc ks
  | leftAngle | rightAngle => cases hopens
  | closing hcloses =>
    rw [opensGroup_of_closes hcloses] at hopens
    cases hopens
  | inert hkind =>
    rw [Kind.isBracket_of_opensGroup hopens] at hkind
    cases hkind

/-- A closing delimiter closes a group in which no angle bracket is open. -/
theorem of_closesGroup (h : AngleStep kind ks ks') (hcloses : kind.closesGroup = true) :
    anglesInGroup ks 0 = 0 ∧ ∀ i, anglesInGroup ks (i + 1) = anglesInGroup ks' i := by
  cases h with
  | outside => exact ⟨rfl, fun _ => rfl⟩
  | closing _ hc => exact anglesInGroup_cons hc ks'
  | leftAngle | rightAngle => cases hcloses
  | opening hopens =>
    rw [opensGroup_of_closes hcloses] at hopens
    cases hopens
  | inert hkind =>
    rw [Kind.isBracket_of_closesGroup hcloses] at hkind
    cases hkind

/-- Another token moves the number of angle brackets in the innermost group by what it is itself. -/
theorem of_token {t : Token} (h : AngleStep t.kind ks ks') (hopens : t.kind.opensGroup = false)
    (hcloses : t.kind.closesGroup = false) :
    kindCount .leftAngle [t] + anglesInGroup ks 0 = kindCount .rightAngle [t] + anglesInGroup ks' 0 ∧
      ∀ i, anglesInGroup ks' (i + 1) = anglesInGroup ks (i + 1) := by
  rw [kindCount_singleton, kindCount_singleton] at *
  generalize t.kind = kind at *
  cases h with
  | outside hleft hright => exact ⟨by rw [if_neg hleft, if_neg hright], fun _ => rfl⟩
  | leftAngle =>
    refine ⟨?_, fun _ => rfl⟩
    rw [if_pos rfl, if_neg (by decide), Nat.zero_add, Nat.add_comm]
    rfl
  | rightAngle =>
    refine ⟨?_, fun _ => rfl⟩
    rw [if_neg (by decide), if_pos rfl, Nat.zero_add, Nat.add_comm]
    rfl
  | opening hopens' =>
    rw [hopens] at hopens'
    cases hopens'
  | closing hcloses' =>
    rw [hcloses] at hcloses'
    cases hcloses'
  | inert hkind =>
    obtain ⟨hleft, hright⟩ := Kind.ne_angle_of_isBracket hkind
    exact ⟨by rw [if_neg hleft, if_neg hright], fun _ => rfl⟩

end AngleStep

-- ---------------------------------------------------------------------------
-- A tree in growth
-- ---------------------------------------------------------------------------

def Node.token? : Node → Option Token
  | .token t => some t
  | .group .. => none

/-- The tokens that stand directly in a list of items. -/
def tokensIn (items : List Node) : List Token := items.filterMap Node.token?

theorem tokensIn_concat_token (items : List Node) (t : Token) :
    tokensIn (items ++ [.token t]) = tokensIn items ++ [t] := List.filterMap_append

theorem tokensIn_concat_group (items nodes : List Node) (opening closing : Token) :
    tokensIn (items ++ [.group opening nodes closing]) = tokensIn items := by
  rw [tokensIn, List.filterMap_append]
  exact List.append_nil _

/-- So many angle brackets are open in a list of items, and none in the groups that are closed in it. -/
structure AnglesOpenIn (depth : Nat) (items : List Node) : Prop where
  direct : AnglesOpen depth (tokensIn items)
  inner : ∀ nodes ∈ Node.itemListsAll items, AnglesOpen 0 (tokensIn nodes)

namespace AnglesOpenIn

variable {depth depth' : Nat} {items nodes : List Node}

theorem nil : AnglesOpenIn 0 [] where
  direct := .nil
  inner nodes hmem := by
    rw [Node.itemListsAll_nil] at hmem
    cases hmem

theorem token {t : Token} (h : AnglesOpenIn depth items)
    (ht : kindCount .leftAngle [t] + depth = kindCount .rightAngle [t] + depth') :
    AnglesOpenIn depth' (items ++ [.token t]) where
  direct := by
    rw [tokensIn_concat_token]
    exact h.direct.concat ht
  inner := by
    rw [Node.itemListsAll_append, Node.itemListsAll_token, List.append_nil]
    exact h.inner

theorem group (h : AnglesOpenIn depth items) (hnodes : AnglesOpenIn 0 nodes) (opening closing : Token) :
    AnglesOpenIn depth (items ++ [.group opening nodes closing]) where
  direct := by
    rw [tokensIn_concat_group]
    exact h.direct
  inner inside hmem := by
    rw [Node.itemListsAll_append, Node.itemListsAll_group] at hmem
    rcases List.mem_append.mp hmem with hmem | hmem
    · exact h.inner inside hmem
    · rcases List.mem_cons.mp hmem with rfl | hmem
      · exact hnodes.direct
      · exact hnodes.inner inside hmem

end AnglesOpenIn

namespace Growth

variable {g g' : Growth} {t : Token} {ks ks' : List Char}

/-- The lists of items that may still grow, newest item first: those of the open groups, innermost first,
and that outside of all groups. -/
def levels (g : Growth) : List (List Node) := g.groups.map OpenGroup.items ++ [g.roots]

theorem levels_opened (g : Growth) (t : Token) : (g.opened t).levels = [] :: g.levels := rfl

theorem levels_close {inner : OpenGroup} {outer : List OpenGroup} (h : g.groups = inner :: outer) :
    g.levels = inner.items :: levels { g with groups := outer } := by
  rw [levels, h]
  rfl

/-- A node is added to the first of these lists. -/
theorem levels_add (g : Growth) : ∃ items rest, g.levels = items :: rest ∧
    ∀ node, (g.add node).levels = (node :: items) :: rest := by
  obtain ⟨groups, roots⟩ := g
  cases groups with
  | nil => exact ⟨roots, [], rfl, fun _ => rfl⟩
  | cons inner outer => exact ⟨inner.items, _, rfl, fun _ => rfl⟩

/-- The angle brackets left open in a tree in growth are those among the open brackets, each in its
group. -/
def AnglesStand (ks : List Char) (g : Growth) : Prop :=
  ∀ i items, g.levels[i]? = some items → AnglesOpenIn (anglesInGroup ks i) items.reverse

theorem anglesStand_empty : AnglesStand [] empty := by
  intro i items hitems
  cases i with
  | zero =>
    obtain rfl := Option.some.inj hitems
    exact .nil
  | succ i => cases hitems

/-- The open brackets and the groups move on together. -/
theorem AnglesStand.push (h : g.AnglesStand ks) (hstep : AngleStep t.kind ks ks')
    (hpush : g.push t = .ok g') : g'.AnglesStand ks' := by
  intro i items hitems
  cases push_cases hpush with
  | opening hopens =>
    obtain ⟨hzero, hsucc⟩ := hstep.of_opensGroup hopens
    rw [levels_opened] at hitems
    cases i with
    | zero =>
      obtain rfl := Option.some.inj hitems
      rw [hzero]
      exact .nil
    | succ i =>
      rw [hsucc]
      exact h i items hitems
  | @closing inner outer hgroups hpair =>
    obtain ⟨hzero, hsucc⟩ := hstep.of_closesGroup (closesGroup_of_pair hpair)
    obtain ⟨first, rest, houter, hadd⟩ := levels_add { g with groups := outer }
    have hlevels : g.levels = inner.items :: first :: rest := by
      rw [levels_close hgroups, houter]
    rw [hadd] at hitems
    rw [← hsucc]
    cases i with
    | zero =>
      obtain rfl := Option.some.inj hitems
      rw [List.reverse_cons]
      have hinner := h 0 inner.items (by rw [hlevels]; rfl)
      rw [hzero] at hinner
      exact (h 1 first (by rw [hlevels]; rfl)).group hinner ..
    | succ i => exact h (i + 2) items (by rw [hlevels]; exact hitems)
  | token hopens hcloses =>
    obtain ⟨hzero, hsucc⟩ := hstep.of_token hopens hcloses
    obtain ⟨first, rest, hlevels, hadd⟩ := g.levels_add
    rw [hadd] at hitems
    cases i with
    | zero =>
      obtain rfl := Option.some.inj hitems
      rw [List.reverse_cons]
      exact (h 0 first (by rw [hlevels]; rfl)).token hzero
    | succ i =>
      rw [hsucc]
      exact h (i + 1) items (by rw [hlevels]; exact hitems)

end Growth

-- ---------------------------------------------------------------------------
-- Calls in a row
-- ---------------------------------------------------------------------------

/-- Behind every opening angle bracket among the tokens, their text nests. -/
def genericsNest : List Token → Bool
  | [] => true
  | t :: ts =>
    (t.kind != .leftAngle || nests ['<'] ['<'] (t.trailing.text ++ ts.flatMap Token.fullText)) &&
      genericsNest ts

/-- Calls in a row keep the angle brackets of the tree in step with the generic arguments that the lexer
is among. -/
theorem Lexer.Reads.anglesStand {l m : Lexer} {ts rest : List Token} {g g' : Growth} {ks : List Char}
    (hreads : l.Reads ts m) (hrest : m.rest = rest.flatMap Token.fullText)
    (hnest : genericsNest (ts ++ rest) = true) (hl : l.AmongGenerics ks) (hg : g.AnglesStand ks)
    (hfold : ts.foldlM Growth.push g = .ok g') :
    ∃ ks', m.AmongGenerics ks' ∧ g'.AnglesStand ks' := by
  induction ts generalizing l g ks with
  | nil =>
    obtain rfl := hreads.eq_of_nil
    obtain rfl := Except.ok.inj hfold
    exact ⟨ks, hl, hg⟩
  | cons t ts ih =>
    obtain ⟨k, hnext, -, hreads⟩ := hreads.uncons
    obtain ⟨next, hpush, hfold⟩ := Growth.foldlM_cons_ok hfold
    rw [List.cons_append, genericsNest, Bool.and_eq_true, Bool.or_eq_true, bne_iff_ne] at hnest
    have hnests : t.kind = .leftAngle → nests ['<'] ['<'] (t.trailing.text ++ k.rest) = true := by
      intro hkind
      rw [hreads.rest_eq, hrest, ← List.flatMap_append]
      exact hnest.1.resolve_left (not_not_intro hkind)
    obtain ⟨ks', hk, hstep⟩ := hl.next hnext hnests
    exact ih hreads hnest.2 hk (hg.push hstep hpush) hfold

/-- **Angle brackets balance in the tree** of a source in which the text behind every opening angle
bracket nests: in every list of items, that outside all groups and that of each group, none is closed
before it is opened, and all are closed. -/
theorem angle_brackets_balance_in_tree {source : List Char} {tree : SourceTree}
    (h : SourceTree.ofText? source = .ok tree) (hnest : genericsNest tree.walk = true) :
    ∀ items ∈ tree.itemLists, AnglesOpen 0 (tokensIn items) := by
  obtain ⟨ts, m, behind, g, hreads, hnext, hkind, hfold, hgroups, hroots⟩ := tree.exists_growth h
  have hwalk : tree.walk = ts ++ [tree.eof] := by
    have htokens := (SourceTree.balanced_of_ofText? h).2
    rw [Lexer.tokens_of_reads hreads hnext hkind] at htokens
    rw [tree.walk_eq_flatten]
    exact (Except.ok.inj htokens).symm
  have hrest : m.rest = [tree.eof].flatMap Token.fullText := by
    obtain ⟨here, x, hcut⟩ := Lexer.next_cut hnext
    rw [hcut.rest_eq, hcut.rest_of_eof hkind, List.append_nil, List.flatMap_singleton]
  rw [hwalk] at hnest
  obtain ⟨ks, hm, hg⟩ := hreads.anglesStand hrest hnest (Lexer.amongGenerics_ofText source)
    Growth.anglesStand_empty hfold
  obtain rfl := hm.eq_nil_of_eof hnext hkind
  have hroot : AnglesOpenIn 0 tree.items := by
    rw [← hroots]
    exact hg 0 g.roots (by rw [Growth.levels, hgroups]; rfl)
  intro items hmem
  rcases List.mem_cons.mp hmem with rfl | hmem
  · exact hroot.direct
  · exact hroot.inner items hmem

/-- Generic arguments in generic arguments, with parentheses and an arrow. The lists of items are those of
the source and of the two pairs of parentheses. -/
theorem angle_brackets_balance_in_tree_nested :
    ∃ tree, SourceTree.ofText? "A<B<(C) -> D>>()".toList = .ok tree ∧
      (∀ items ∈ tree.itemLists, AnglesOpen 0 (tokensIn items)) ∧
      tree.itemLists.map (fun items => kindCount .leftAngle (tokensIn items)) = [2, 0, 0] := by
  have hknown : (SourceTree.ofText? "A<B<(C) -> D>>()".toList).toOption.map (fun tree =>
      (genericsNest tree.walk,
        tree.itemLists.map (fun items => kindCount .leftAngle (tokensIn items)))) =
      some (true, [2, 0, 0]) := by
    decide +kernel
  obtain ⟨tree, htree, hknown⟩ := exists_ok_of_toOption_map hknown
  obtain ⟨hnest, hcounts⟩ := Prod.mk.inj hknown
  exact ⟨tree, htree, angle_brackets_balance_in_tree htree hnest, hcounts⟩

/-- Where the text does not nest, an operator may take an opening bracket that the search has counted.
-/
theorem exists_tree_with_unbalanced_angles :
    ∃ tree, SourceTree.ofText? "a<b!<c>>".toList = .ok tree ∧
      ∃ items ∈ tree.itemLists, ¬ AnglesOpen 0 (tokensIn items) := by
  have hknown : (SourceTree.ofText? "a<b!<c>>".toList).toOption.map (fun tree =>
      (kindCount .leftAngle (tokensIn tree.items), kindCount .rightAngle (tokensIn tree.items))) =
      some (1, 2) := by
    decide +kernel
  obtain ⟨tree, htree, hknown⟩ := exists_ok_of_toOption_map hknown
  obtain ⟨hleft, hright⟩ := Prod.mk.inj hknown
  refine ⟨tree, htree, tree.items, List.mem_cons_self .., fun hopen => ?_⟩
  have hopened := hopen.opened_eq
  rw [hleft, hright] at hopened
  cases hopened

end SwiftColoring
