import SwiftColoring.Proofs.Balance

/-!
# How a tree grows

A token does one of three things to a tree in growth: it opens a group, closes the innermost one, or
stands in it. What is said about the lists of items in a finished tree is proved along these cases,
while calls hand the tokens out.

* `Growth.push_cases` — every way a token can be accepted.
* `SourceTree.exists_growth` — a tree is grown from what calls hand out before the end of the source.
* `SourceTree.itemLists` — the lists of items of a tree: outside all groups, and inside each.
-/

namespace SwiftColoring

-- ---------------------------------------------------------------------------
-- Lists of items
-- ---------------------------------------------------------------------------

mutual

/-- The lists of items inside a node: that of a group, and those inside its items. -/
def Node.itemLists : Node → List (List Node)
  | .token _ => []
  | .group _ items _ => items :: Node.itemListsAll items

/-- The lists of items inside nodes in a row. -/
def Node.itemListsAll : List Node → List (List Node)
  | [] => []
  | node :: nodes => node.itemLists ++ Node.itemListsAll nodes

end

/-- The lists of items of a tree. -/
def SourceTree.itemLists (tree : SourceTree) : List (List Node) :=
  tree.items :: Node.itemListsAll tree.items

@[simp] theorem Node.itemListsAll_nil : Node.itemListsAll [] = [] := by
  rw [Node.itemListsAll]

@[simp] theorem Node.itemListsAll_append (a b : List Node) :
    Node.itemListsAll (a ++ b) = Node.itemListsAll a ++ Node.itemListsAll b := by
  induction a with
  | nil => rw [List.nil_append, Node.itemListsAll_nil, List.nil_append]
  | cons node a ih =>
    rw [List.cons_append, Node.itemListsAll, Node.itemListsAll, ih, List.append_assoc]

@[simp] theorem Node.itemListsAll_token (t : Token) : Node.itemListsAll [.token t] = [] := by
  rw [Node.itemListsAll, Node.itemLists, Node.itemListsAll_nil, List.nil_append]

@[simp] theorem Node.itemListsAll_group (opening : Token) (items : List Node) (closing : Token) :
    Node.itemListsAll [.group opening items closing] = items :: Node.itemListsAll items := by
  rw [Node.itemListsAll, Node.itemLists, Node.itemListsAll_nil, List.append_nil]

-- ---------------------------------------------------------------------------
-- One token
-- ---------------------------------------------------------------------------

namespace Growth

variable {g g' : Growth} {t : Token} {ts us : List Token}

/-- A group opened in the innermost one. -/
def opened (g : Growth) (t : Token) : Growth := { g with groups := ⟨t, []⟩ :: g.groups }

/-- Nodes added in turn to the innermost group. -/
def addAll (g : Growth) (nodes : List Node) : Growth := nodes.foldl add g

@[simp] theorem addAll_addAll (g : Growth) (a b : List Node) :
    (g.addAll a).addAll b = g.addAll (a ++ b) := List.foldl_append.symm

theorem addAll_concat (g : Growth) (nodes : List Node) (node : Node) :
    g.addAll (nodes ++ [node]) = (g.addAll nodes).add node := (addAll_addAll ..).symm

/-- What is added behind an opening delimiter stands in its group. -/
theorem addAll_opened (g : Growth) (t : Token) (items : List Node) :
    (g.opened t).addAll items = { g with groups := ⟨t, items.reverse⟩ :: g.groups } := by
  induction items using List.reverseRecOn with
  | nil => rfl
  | append_singleton items node ih =>
    rw [addAll_concat, ih, List.reverse_append]
    rfl

/-- What is added outside all groups stands there. -/
theorem addAll_empty (items : List Node) : empty.addAll items = ⟨[], items.reverse⟩ := by
  induction items using List.reverseRecOn with
  | nil => rfl
  | append_singleton items node ih =>
    rw [addAll_concat, ih, List.reverse_append]
    rfl

/-- Every way a token can be accepted. -/
inductive PushCase (g : Growth) (t : Token) : Growth → Prop where
  | opening (hopens : t.kind.opensGroup = true) : PushCase g t (g.opened t)
  | closing {inner : OpenGroup} {outer : List OpenGroup} (hgroups : g.groups = inner :: outer)
      (hpair : inner.opening.kind.isClosedBy t.kind = true) :
      PushCase g t ({ g with groups := outer }.add (.group inner.opening inner.items.reverse t))
  | token (hopens : t.kind.opensGroup = false) (hcloses : t.kind.closesGroup = false) :
      PushCase g t (g.add (.token t))

theorem push_cases (h : g.push t = .ok g') : g.PushCase t g' := by
  unfold push at h
  split at h
  · rename_i hopens
    obtain rfl := Except.ok.inj h
    exact .opening hopens
  rename_i hopens
  split at h
  · unfold close at h
    split at h
    · cases h
    rename_i inner outer hgroups
    split at h
    · rename_i hpair
      obtain rfl := Except.ok.inj h
      exact .closing hgroups hpair
    · cases h
  · rename_i hcloses
    obtain rfl := Except.ok.inj h
    exact .token (Bool.eq_false_iff.mpr hopens) (Bool.eq_false_iff.mpr hcloses)

/-- A token that is no delimiter stands in the innermost group. -/
theorem eq_add_of_push (h : g.push t = .ok g') (hopens : t.kind.opensGroup = false)
    (hcloses : t.kind.closesGroup = false) : g' = g.add (.token t) := by
  rw [push_other g hopens hcloses] at h
  exact (Except.ok.inj h).symm

theorem eq_opened_of_push (h : g.push t = .ok g') (hopens : t.kind.opensGroup = true) :
    g' = g.opened t := by
  rw [push_opening g hopens] at h
  exact (Except.ok.inj h).symm

-- ---------------------------------------------------------------------------
-- Tokens in a row
-- ---------------------------------------------------------------------------

theorem foldlM_append_ok (h : (ts ++ us).foldlM push g = .ok g') :
    ∃ m, ts.foldlM push g = .ok m ∧ us.foldlM push m = .ok g' := by
  rw [List.foldlM_append] at h
  cases hts : ts.foldlM push g with
  | error failure =>
    rw [hts] at h
    cases h
  | ok m =>
    rw [hts] at h
    exact ⟨m, rfl, h⟩

theorem foldlM_cons_ok (h : (t :: ts).foldlM push g = .ok g') :
    ∃ m, g.push t = .ok m ∧ ts.foldlM push m = .ok g' := by
  rw [List.foldlM_cons] at h
  cases hpush : g.push t with
  | error failure =>
    rw [hpush] at h
    cases h
  | ok m =>
    rw [hpush] at h
    exact ⟨m, rfl, h⟩

theorem foldlM_singleton_ok (h : [t].foldlM push g = .ok g') : g.push t = .ok g' := by
  obtain ⟨m, hpush, hnil⟩ := foldlM_cons_ok h
  obtain rfl := Except.ok.inj hnil
  exact hpush

end Growth

/-- A tree is grown from what calls hand out before the end of the source, with no group left open.
-/
theorem SourceTree.exists_growth {source : List Char} {tree : SourceTree}
    (h : ofText? source = .ok tree) :
    ∃ (ts : List Token) (m behind : Lexer) (g : Growth), (Lexer.ofText source).Reads ts m ∧
      m.next = (.ok tree.eof, behind) ∧ tree.eof.kind = .eof ∧
      ts.foldlM Growth.push .empty = .ok g ∧ g.groups = [] ∧ g.roots.reverse = tree.items := by
  obtain ⟨m, hreads, hnext, hkind⟩ := (Lexer.ofText source).exists_reads_stream rfl
  rw [ofText?_eq] at h
  cases hfold : (Lexer.ofText source).stream.tokens.foldlM Growth.push .empty with
  | error failure =>
    rw [hfold] at h
    cases h
  | ok g =>
    rw [hfold] at h
    cases hending : (Lexer.ofText source).stream.ending with
    | error failure =>
      rw [hending] at h
      cases h
    | ok eof =>
      rw [hending] at h hnext
      replace h : g.finish eof = .ok tree := h
      unfold Growth.finish at h
      split at h
      · rename_i hgroups
        obtain rfl := Except.ok.inj h
        exact ⟨_, m, m.next.2, g, hreads, Prod.ext hnext rfl, hkind eof hending, hfold, hgroups, rfl⟩
      · cases h

end SwiftColoring
