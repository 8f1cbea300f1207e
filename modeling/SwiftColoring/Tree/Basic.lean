import SwiftColoring.Lexer.TokenStream

/-!
# Trees of delimiters

A source as a tree: tokens, and groups of what stands between an opening delimiter and the one that
closes it. The tree is grown token by token, with the groups that are still open on a stack, so that
the first delimiter out of place is the one reported, and a failure to read counts only if no such
delimiter stands before it.
-/

namespace SwiftColoring

/-- A token, or a group with its delimiters. -/
inductive Node where
  | token (t : Token)
  | group (opening : Token) (items : List Node) (closing : Token)

/-- A source as a tree. The last token holds the trivia at the end of the source. -/
structure SourceTree where
  items : List Node
  eof : Token

mutual

/-- The tokens of a node in source order. -/
def Node.flatten : Node → List Token
  | .token t => [t]
  | .group opening items closing => opening :: (Node.flattenAll items ++ [closing])

/-- The tokens of nodes in a row, in source order. -/
def Node.flattenAll : List Node → List Token
  | [] => []
  | node :: nodes => node.flatten ++ Node.flattenAll nodes

end

/-- The tokens of the tree in source order, ending with the last one. -/
def SourceTree.flatten (tree : SourceTree) : List Token := Node.flattenAll tree.items ++ [tree.eof]

theorem Node.flattenAll_append (a b : List Node) :
    Node.flattenAll (a ++ b) = Node.flattenAll a ++ Node.flattenAll b := by
  induction a with
  | nil => simp [Node.flattenAll]
  | cons node a ih => simp [Node.flattenAll, ih]

/-! ## Growing a tree -/

/-- A group whose closing delimiter is yet to come. -/
structure OpenGroup where
  opening : Token
  /-- What stands in it so far, newest first. -/
  items : List Node

/-- A tree in growth. -/
structure Growth where
  /-- The open groups, innermost first. -/
  groups : List OpenGroup
  /-- What stands outside all groups so far, newest first. -/
  roots : List Node

namespace Growth

/-- Nothing yet. -/
def empty : Growth := ⟨[], []⟩

/-- A node added to the innermost open group. -/
def add (g : Growth) (node : Node) : Growth :=
  match g.groups with
  | [] => { g with roots := node :: g.roots }
  | inner :: outer => { g with groups := { inner with items := node :: inner.items } :: outer }

/-- A closing delimiter added: it closes the innermost open group. -/
def close (g : Growth) (t : Token) : Except Failure Growth :=
  match g.groups with
  | [] => .error (.unexpectedClosing t.kind t.span)
  | inner :: outer =>
    if inner.opening.kind.isClosedBy t.kind then
      .ok ({ g with groups := outer }.add (.group inner.opening inner.items.reverse t))
    else .error (.mismatchedClosing t.kind t.span inner.opening.kind inner.opening.span)

/-- A token added. -/
def push (g : Growth) (t : Token) : Except Failure Growth :=
  if t.kind.opensGroup then .ok { g with groups := ⟨t, []⟩ :: g.groups }
  else if t.kind.closesGroup then g.close t
  else .ok (g.add (.token t))

/-- The grown tree, once the source has ended. -/
def finish (g : Growth) (eof : Token) : Except Failure SourceTree :=
  match g.groups with
  | [] => .ok ⟨g.roots.reverse, eof⟩
  | inner :: _ => .error (.unclosedGroup inner.opening.kind inner.opening.span)

/-- The tree grown call by call: each token is added before the next one is read, and what fails
first, be it a call or the addition of a token, ends the growth. -/
def grow (g : Growth) (l : Lexer) : Except Failure SourceTree :=
  match _h : l.next with
  | (.error failure, _) => .error failure
  | (.ok t, behind) =>
    if _hkind : t.kind = .eof then g.finish t
    else
      match g.push t with
      | .error failure => .error failure
      | .ok g => grow g behind
termination_by l.budget
decreasing_by
  exact (Lexer.next_budget_lt _h).resolve_left fun hlast => _hkind hlast.1

end Growth

namespace SourceTree

/-- The tree of the tokens of a stream: that of all of them, if none is out of place. -/
def ofStream? (s : TokenStream) : Except Failure SourceTree := do
  let g ← s.tokens.foldlM Growth.push .empty
  -- only now does it matter how the stream ended
  let eof ← s.ending
  g.finish eof

/-- The tree of a source. -/
def ofText? (text : List Char) : Except Failure SourceTree := ofStream? (.ofText text)

end SourceTree

end SwiftColoring
