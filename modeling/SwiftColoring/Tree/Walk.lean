import SwiftColoring.Tree.Basic

/-!
# Walks through a tree

A walk visits the tokens of a tree in source order and keeps no more than what is still to be visited:
nodes not yet entered, and the delimiters of the groups it is in. A group is entered by taking it apart.
More is pending then, but less work is left, so that every call comes to an end.

* `Walk.flatten_of_next?` — a call hands out the first of the tokens that are still to come.
* `SourceTree.walk_eq_flatten` — the walk through a tree visits its tokens in source order.
-/

namespace SwiftColoring

/-- Something still to be visited. -/
inductive Pending where
  | node (n : Node)
  | token (t : Token)

namespace Pending

/-- The tokens of something still to be visited. -/
def flatten : Pending → List Token
  | .node n => n.flatten
  | .token t => [t]

theorem flatMap_map_node (nodes : List Node) :
    (nodes.map node).flatMap flatten = Node.flattenAll nodes := by
  induction nodes with
  | nil => rfl
  | cons n nodes ih => rw [List.map_cons, List.flatMap_cons, ih, Node.flattenAll, flatten]

/-- A group taken apart: its delimiters, and what stands between them. -/
def ofGroup (opening : Token) (items : List Node) (closing : Token) : List Pending :=
  .token opening :: (items.map node ++ [.token closing])

theorem flatMap_ofGroup (opening : Token) (items : List Node) (closing : Token) :
    (ofGroup opening items closing).flatMap flatten = (Node.group opening items closing).flatten := by
  rw [ofGroup, List.flatMap_cons, List.flatMap_append, flatMap_map_node, List.flatMap_singleton,
    Node.flatten]
  rfl

/-- The work that something still to be visited takes: a token is handed out at once, the tokens of a
node may have to be taken out of it first. -/
def weight : Pending → Nat
  | .node n => 2 * n.flatten.length
  | .token _ => 1

/-- The work that things still to be visited take together. -/
def weightAll : List Pending → Nat
  | [] => 0
  | p :: pending => p.weight + weightAll pending

theorem weightAll_append (pending rest : List Pending) :
    weightAll (pending ++ rest) = weightAll pending + weightAll rest := by
  induction pending with
  | nil => rw [List.nil_append, weightAll, Nat.zero_add]
  | cons p pending ih => rw [List.cons_append, weightAll, weightAll, ih, Nat.add_assoc]

theorem weightAll_map_node (nodes : List Node) :
    weightAll (nodes.map node) = 2 * (Node.flattenAll nodes).length := by
  induction nodes with
  | nil => rfl
  | cons n nodes ih =>
    rw [List.map_cons, weightAll, ih, Node.flattenAll, List.length_append, weight, Nat.mul_add]

/-- A group taken apart is less work, though it is more to keep. -/
theorem weightAll_ofGroup_lt (opening : Token) (items : List Node) (closing : Token) :
    weightAll (ofGroup opening items closing) < weight (.node (.group opening items closing)) := by
  rw [ofGroup, weightAll, weightAll_append, weightAll_map_node]
  simp only [weightAll, weight, Node.flatten, List.length_cons, List.length_append, List.length_nil]
  omega

end Pending

/-- What is still to be visited, next first. -/
structure Walk where
  pending : List Pending

namespace Walk

/-- The walk through a whole tree. -/
def ofTree (tree : SourceTree) : Walk := ⟨tree.items.map .node ++ [.token tree.eof]⟩

/-- The next token, and the rest of the walk. A group is taken apart until a token comes first. -/
def next? (w : Walk) : Option (Token × Walk) :=
  match w with
  | ⟨[]⟩ => none
  | ⟨.token t :: rest⟩ => some (t, ⟨rest⟩)
  | ⟨.node (.token t) :: rest⟩ => some (t, ⟨rest⟩)
  | ⟨.node (.group opening items closing) :: rest⟩ =>
    next? ⟨Pending.ofGroup opening items closing ++ rest⟩
termination_by Pending.weightAll w.pending
decreasing_by
  rw [Pending.weightAll_append, Pending.weightAll]
  exact Nat.add_lt_add_right (Pending.weightAll_ofGroup_lt ..) _

/-- The tokens still to come. -/
def flatten (w : Walk) : List Token := w.pending.flatMap Pending.flatten

theorem flatten_ofGroup (opening : Token) (items : List Node) (closing : Token) (rest : List Pending) :
    flatten ⟨Pending.ofGroup opening items closing ++ rest⟩ =
      flatten ⟨.node (.group opening items closing) :: rest⟩ := by
  rw [flatten, List.flatMap_append, Pending.flatMap_ofGroup, flatten, List.flatMap_cons,
    Pending.flatten]

theorem flatten_of_next? {w rest : Walk} {t : Token} (h : w.next? = some (t, rest)) :
    w.flatten = t :: rest.flatten := by
  fun_induction next? w with
  | case1 => cases h
  | case2 | case3 =>
    obtain ⟨rfl, rfl⟩ := Prod.mk.inj (Option.some.inj h)
    rfl
  | case4 opening items closing rest ih => rw [← flatten_ofGroup, ih h]

theorem flatten_of_next?_eq_none {w : Walk} (h : w.next? = none) : w.flatten = [] := by
  fun_induction next? w with
  | case1 => rfl
  | case2 | case3 => cases h
  | case4 opening items closing rest ih => rw [← flatten_ofGroup, ih h]

/-- The tokens of the walk, call by call. -/
def toList (w : Walk) : List Token :=
  match _h : w.next? with
  | none => []
  | some (t, rest) => t :: rest.toList
termination_by w.flatten.length
decreasing_by
  rw [flatten_of_next? _h, List.length_cons]
  exact Nat.lt_succ_self _

theorem toList_eq_flatten (w : Walk) : w.toList = w.flatten := by
  fun_induction toList w with
  | case1 w h => rw [flatten_of_next?_eq_none h]
  | case2 w t rest h ih => rw [ih, flatten_of_next? h]

end Walk

/-- The tokens of the tree in source order, ending with the last one, by a walk. -/
def SourceTree.walk (tree : SourceTree) : List Token := (Walk.ofTree tree).toList

theorem SourceTree.walk_eq_flatten (tree : SourceTree) : tree.walk = tree.flatten := by
  rw [walk, Walk.toList_eq_flatten, Walk.flatten, Walk.ofTree, List.flatMap_append,
    Pending.flatMap_map_node, List.flatMap_singleton]
  rfl

end SwiftColoring
