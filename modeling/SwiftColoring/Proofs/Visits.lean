import SwiftColoring.Tree.Walk

/-!
# What a walk visits

A walk hands out one token a call: the tokens of the tree in the order in which they stand, and then no
more. This holds of every tree, whether or not a source grows into it, with empty groups and groups
nested in any way.

That every token is visited once is said by addresses. The same token may stand in a tree twice, but an
address leads to one place only.

* `Walk.answer_eq` — which token a call hands out.
* `Node.exists_lists` — the tokens of a node, in source order, are those at all its addresses, in order.
* `walk_visits_every_token_once` — the whole statement.
-/

namespace SwiftColoring

-- ---------------------------------------------------------------------------
-- Calls
-- ---------------------------------------------------------------------------

namespace Walk

/-- What a call leaves of the walk. With nothing to hand out, it leaves the walk as it is. -/
def behind (w : Walk) : Walk := w.next?.elim w Prod.snd

/-- What a number of calls leave of the walk. -/
def afterCalls : Nat → Walk → Walk
  | 0, w => w
  | n + 1, w => afterCalls n w.behind

/-- What is handed out by the call behind `n` others. -/
def answer (w : Walk) (n : Nat) : Option Token := (afterCalls n w).next?.map Prod.fst

theorem next?_eq_head? (w : Walk) : w.next?.map Prod.fst = w.flatten.head? := by
  cases h : w.next? with
  | none => rw [flatten_of_next?_eq_none h]; rfl
  | some found => rw [flatten_of_next? h]; rfl

theorem flatten_behind (w : Walk) : w.behind.flatten = w.flatten.tail := by
  unfold behind
  cases h : w.next? with
  | none => rw [Option.elim_none, flatten_of_next?_eq_none h]; rfl
  | some found => rw [Option.elim_some, flatten_of_next? h]; rfl

theorem flatten_afterCalls (n : Nat) (w : Walk) : (afterCalls n w).flatten = w.flatten.drop n := by
  induction n generalizing w with
  | zero => rfl
  | succ n ih => rw [afterCalls, ih, flatten_behind, List.drop_tail]

/-- Each call hands out the token whose turn it is, and none when all have had theirs. -/
theorem answer_eq (w : Walk) (n : Nat) : w.answer n = w.flatten[n]? := by
  rw [answer, next?_eq_head?, flatten_afterCalls, List.head?_drop]

end Walk

-- ---------------------------------------------------------------------------
-- Addresses
-- ---------------------------------------------------------------------------

/-- A way from a node to a token in it: which part to go to, and the way from there. -/
abbrev Address := List Nat

/-- The parts of a node; the delimiters of a group are the first and the last. -/
def Node.parts : Node → List Node
  | .token _ => []
  | .group opening items closing => .token opening :: (items ++ [.token closing])

/-- The token at an address in a node. -/
def Node.at? : Address → Node → Option Token
  | [], .token t => some t
  | [], .group .. => none
  | i :: a, node => node.parts[i]?.bind (at? a)

/-- The token at an address in nodes in a row. -/
def partAt? (parts : List Node) : Address → Option Token
  | [] => none
  | i :: a => parts[i]?.bind (Node.at? a)

/-- The token at an address in a tree, whose last part is its last token. -/
def SourceTree.at? (tree : SourceTree) : Address → Option Token :=
  partAt? (tree.items ++ [.token tree.eof])

/-- The same address, with one more part before the one that it leads to. -/
def Address.shift : Address → Address
  | [] => []
  | i :: a => (i + 1) :: a

/-- The addresses are all that lead to a token, each once and in order, and these are the tokens. -/
structure Lists (find? : Address → Option Token) (addresses : List Address) (ts : List Token) :
    Prop where
  sorted : addresses.Pairwise (· < ·)
  mem_iff : ∀ a, a ∈ addresses ↔ (find? a).isSome
  tokens : addresses.map find? = ts.map some

namespace Address

theorem shift_lt_shift {a b : Address} (h : a < b) : a.shift < b.shift := by
  cases a with
  | nil =>
    cases b with
    | nil => exact h
    | cons j b => exact List.nil_lt_cons ..
  | cons i a =>
    cases b with
    | nil => exact absurd h (List.not_lt_nil _)
    | cons j b =>
      rw [List.cons_lt_cons_iff] at h
      rw [shift, shift, List.cons_lt_cons_iff]
      rcases h with hless | ⟨rfl, hless⟩
      · exact .inl (Nat.succ_lt_succ hless)
      · exact .inr ⟨rfl, hless⟩

theorem shift_eq_cons {b : Address} {i : Nat} {a : Address} :
    b.shift = i :: a ↔ ∃ j, i = j + 1 ∧ b = j :: a := by
  cases b with
  | nil => simp [shift]
  | cons j b =>
    constructor
    · intro h
      obtain ⟨rfl, rfl⟩ := List.cons.inj h
      exact ⟨j, rfl, rfl⟩
    · rintro ⟨k, rfl, h⟩
      obtain ⟨rfl, rfl⟩ := List.cons.inj h
      rfl

theorem mem_map_shift {bs : List Address} {i : Nat} {a : Address} :
    i :: a ∈ bs.map shift ↔ ∃ j, i = j + 1 ∧ j :: a ∈ bs := by
  rw [List.mem_map]
  constructor
  · rintro ⟨b, hb, h⟩
    obtain ⟨j, rfl, rfl⟩ := shift_eq_cons.mp h
    exact ⟨j, rfl, hb⟩
  · rintro ⟨j, rfl, h⟩
    exact ⟨j :: a, h, rfl⟩

end Address

namespace Lists

variable {node : Node} {nodes : List Node} {as bs : List Address} {ts us : List Token}

theorem token (t : Token) : Lists (fun a => (Node.token t).at? a) [[]] [t] := by
  refine ⟨List.pairwise_singleton .., fun a => ?_, rfl⟩
  cases a with
  | nil => simp [Node.at?]
  | cons i a => simp [Node.at?, Node.parts]

theorem nil : Lists (partAt? []) [] [] := by
  refine ⟨.nil, fun a => ?_, rfl⟩
  cases a <;> simp [partAt?]

/-- An address among nodes in a row goes to one of them first. -/
theorem ne_nil (h : Lists (partAt? nodes) as ts) : [] ∉ as := by
  intro hmem
  cases (h.mem_iff []).mp hmem

/-- To the addresses in the first part come those in the others, each one part further. -/
theorem cons (hfirst : Lists (fun a => node.at? a) as ts) (hrest : Lists (partAt? nodes) bs us) :
    Lists (partAt? (node :: nodes)) (as.map (0 :: ·) ++ bs.map Address.shift) (ts ++ us) := by
  constructor
  case sorted =>
    rw [List.pairwise_append, List.pairwise_map, List.pairwise_map]
    refine ⟨hfirst.sorted.imp fun h => ?_, hrest.sorted.imp Address.shift_lt_shift, ?_⟩
    · exact List.cons_lt_cons_iff.mpr (.inr ⟨rfl, h⟩)
    · intro a ha b hb
      obtain ⟨a, -, rfl⟩ := List.mem_map.mp ha
      obtain ⟨b, hmem, rfl⟩ := List.mem_map.mp hb
      cases b with
      | nil => exact absurd hmem hrest.ne_nil
      | cons j b => exact List.cons_lt_cons_iff.mpr (.inl (Nat.succ_pos j))
  case mem_iff =>
    intro a
    rw [List.mem_append]
    match a with
    | [] =>
      have hnone : [] ∉ bs.map Address.shift := by
        intro h
        obtain ⟨b, hb, hnil⟩ := List.mem_map.mp h
        cases b with
        | nil => exact hrest.ne_nil hb
        | cons j b => cases hnil
      simp [partAt?, hnone]
    | 0 :: a =>
      have hat : partAt? (node :: nodes) (0 :: a) = node.at? a := rfl
      rw [hat, ← hfirst.mem_iff a, Address.mem_map_shift]
      simp
    | (i + 1) :: a =>
      have hat : partAt? (node :: nodes) ((i + 1) :: a) = partAt? nodes (i :: a) := rfl
      rw [hat, ← hrest.mem_iff (i :: a), Address.mem_map_shift]
      simp
  case tokens =>
    have hshift : partAt? (node :: nodes) ∘ Address.shift = partAt? nodes := by
      funext b
      cases b <;> rfl
    rw [List.map_append, List.map_map, List.map_map, hshift, hrest.tokens, List.map_append,
      ← hfirst.tokens]
    rfl

end Lists

mutual

/-- The tokens of a node, in source order, are those at its addresses, in order. -/
theorem Node.exists_lists : ∀ node : Node, ∃ as, Lists (fun a => node.at? a) as node.flatten
  | .token t => ⟨_, .token t⟩
  | .group opening items closing => by
    obtain ⟨bs, hbs⟩ := Node.exists_lists_parts items closing
    have hgroup := (Lists.token opening).cons hbs
    have hat : (fun a => (Node.group opening items closing).at? a) =
        partAt? (.token opening :: (items ++ [.token closing])) := by
      funext a
      cases a <;> rfl
    rw [hat, Node.flatten]
    exact ⟨_, hgroup⟩

theorem Node.exists_lists_parts : ∀ (items : List Node) (last : Token),
    ∃ as, Lists (partAt? (items ++ [.token last])) as (Node.flattenAll items ++ [last])
  | [], last => by
    have hlast := (Lists.token last).cons .nil
    exact ⟨_, hlast⟩
  | node :: items, last => by
    obtain ⟨as, has⟩ := node.exists_lists
    obtain ⟨bs, hbs⟩ := Node.exists_lists_parts items last
    rw [Node.flattenAll, List.append_assoc]
    exact ⟨_, has.cons hbs⟩

end

/-- **A walk visits every token once.** The walk through any tree hands out the tokens of the tree in
source order, the last token of the source last: each call hands out the one whose turn it is, and the
calls behind the last hand out none. These are the tokens at all the addresses in the tree, one for each
address, in the order of addresses. -/
theorem walk_visits_every_token_once (tree : SourceTree) :
    tree.walk = tree.flatten ∧
    (∀ n, (Walk.ofTree tree).answer n = tree.flatten[n]?) ∧
    ∃ addresses : List Address, addresses.Pairwise (· < ·) ∧
      (∀ a, a ∈ addresses ↔ (tree.at? a).isSome) ∧
      addresses.map tree.at? = tree.walk.map some := by
  refine ⟨tree.walk_eq_flatten, fun n => ?_, ?_⟩
  · rw [Walk.answer_eq, ← Walk.toList_eq_flatten, ← tree.walk_eq_flatten, SourceTree.walk]
  · obtain ⟨addresses, h⟩ := Node.exists_lists_parts tree.items tree.eof
    rw [tree.walk_eq_flatten]
    exact ⟨addresses, h.sorted, h.mem_iff, h.tokens⟩

end SwiftColoring
