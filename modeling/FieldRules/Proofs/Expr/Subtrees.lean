import FieldRules.Expr.Node

/-!
# Subtrees

The subtrees of a tree are the tree itself and those of its operands, of the
expression inside it, of its subscripts and of its arguments.
-/

namespace FieldRules.Node

variable [RegexLibrary]

mutual

/-- The subtrees of a tree, the tree itself first. -/
def subtrees : Node → List Node
  | selector origin subscripts => selector origin subscripts :: listSubtrees subscripts
  | group negate inner => group negate inner :: inner.subtrees
  | binary operator left right =>
      binary operator left right :: (left.subtrees ++ right.subtrees)
  | call negate callee arguments => call negate callee arguments :: listSubtrees arguments
  | node => [node]

/-- The subtrees of several trees in order. -/
def listSubtrees : List Node → List Node
  | [] => []
  | node :: nodes => node.subtrees ++ listSubtrees nodes

end

theorem mem_listSubtrees_iff {nodes : List Node} {subtree : Node} :
    subtree ∈ listSubtrees nodes ↔ ∃ node ∈ nodes, subtree ∈ node.subtrees := by
  induction nodes with
  | nil => simp [listSubtrees]
  | cons node nodes ih => simp [listSubtrees, ih]

end FieldRules.Node
