import FieldRules.Expr.Node

/-!
# Chains and precedence

An expression is read as a chain, operands with operators between them.  The
tree that follows the text gives every operator all that stands before it as
its left operand.  It is regrouped from left to right: each operator with its
right operand is attached to the regrouped tree so far, below every operator on
the right edge that binds less tightly.  Operators of one priority group to the
left.
-/

namespace FieldRules

variable [RegexLibrary]

/-- Operands in the order of the text, with operators between them. -/
structure Chain where
  first : Node
  rest : List (Operator × Node)

/-- The tree that follows the text: every operator applies to all that stands
before it. -/
def Chain.lexical (chain : Chain) : Node :=
  chain.rest.foldl (fun tree link => .binary link.1 tree link.2) chain.first

/-- Attach an operator and its right operand to a tree.  Where the tree's own
operator binds less tightly, the attachment goes to its right operand. -/
def Node.attach : (tree : Node) → (operator : Operator) → (right : Node) → Node
  | .binary inner left innerRight, operator, right =>
      if inner.priority < operator.priority then
        .binary inner left (innerRight.attach operator right)
      else .binary operator (.binary inner left innerRight) right
  | tree, operator, right => .binary operator tree right

/-- Regroup a tree that follows the text: the left operand first, then the
operator is attached to it. -/
def Node.regroup : Node → Node
  | .binary operator left right => left.regroup.attach operator right
  | tree => tree

/-- The tree of a chain. -/
def Chain.tree (chain : Chain) : Node :=
  chain.lexical.regroup

end FieldRules
