import FieldRules.Expr.Chain
import Mathlib.Order.Nat

/-!
# Grouping by precedence

The left-to-right view of a tree is the chain of its operands and operators.  A
tree is grouped when the operators on its spine respect their priorities: a left
operand binds at least as tightly as the operator over it, a right operand
strictly tighter.

The tree of a chain is grouped and has the chain as its view, and a grouped tree
is determined by its view.  Precedence climbing, which builds a tree without
ever regrouping one, therefore yields the same tree.
-/

namespace FieldRules

variable [RegexLibrary]

/-! ## Chains -/

namespace Chain

/-- Two chains with an operator between them. -/
def join (left : Chain) (operator : Operator) (right : Chain) : Chain where
  first := left.first
  rest := left.rest ++ (operator, right.first) :: right.rest

/-- A chain with more links at its end. -/
def extend (chain : Chain) (links : List (Operator × Node)) : Chain where
  first := chain.first
  rest := chain.rest ++ links

@[simp]
theorem extend_nil (chain : Chain) : chain.extend [] = chain := by
  simp [extend]

@[simp]
theorem extend_extend (chain : Chain) (links more : List (Operator × Node)) :
    (chain.extend links).extend more = chain.extend (links ++ more) := by
  simp [extend]

theorem join_extend (left : Chain) (operator : Operator) (right : Chain)
    (links : List (Operator × Node)) :
    (left.join operator right).extend links = left.join operator (right.extend links) := by
  simp [join, extend]

end Chain

/-! ## The view of a tree from left to right -/

namespace Node

/-- Every tree but an operator with its operands is an operand. -/
def isOperand : Node → Bool
  | binary _ _ _ => false
  | _ => true

/-- Induction along the spine of a tree: operands are not looked into. -/
@[elab_as_elim]
theorem spineInduction {motive : Node → Prop}
    (operand : ∀ tree, tree.isOperand = true → motive tree)
    (binary : ∀ operator left right, motive left → motive right →
      motive (.binary operator left right)) :
    ∀ tree, motive tree
  | .binary operator left right =>
      binary operator left right (spineInduction operand binary left)
        (spineInduction operand binary right)
  | .nil => operand _ rfl
  | .bool _ => operand _ rfl
  | .number _ => operand _ rfl
  | .text _ => operand _ rfl
  | .selector _ _ => operand _ rfl
  | .group _ _ => operand _ rfl
  | .call _ _ _ => operand _ rfl

/-- The operands and operators of a tree from left to right. -/
def inorder : Node → Chain
  | binary operator left right => left.inorder.join operator right.inorder
  | tree => ⟨tree, []⟩

@[simp]
theorem inorder_binary (operator : Operator) (left right : Node) :
    (binary operator left right).inorder = left.inorder.join operator right.inorder :=
  rfl

theorem inorder_of_isOperand {tree : Node} (operand : tree.isOperand = true) :
    tree.inorder = ⟨tree, []⟩ := by
  cases tree <;> first | rfl | cases operand

@[simp]
theorem priority_binary (operator : Operator) (left right : Node) :
    (binary operator left right).priority = operator.priority :=
  rfl

theorem priority_of_isOperand {tree : Node} (operand : tree.isOperand = true) :
    tree.priority = operandPriority := by
  cases tree <;> first | rfl | cases operand

theorem regroup_of_isOperand {tree : Node} (operand : tree.isOperand = true) :
    tree.regroup = tree := by
  cases tree <;> first | rfl | cases operand

/-- A tree is grouped when the operators on its spine respect their priorities. -/
def Grouped : Node → Prop
  | binary operator left right =>
      operator.priority ≤ left.priority ∧ operator.priority < right.priority ∧
        left.Grouped ∧ right.Grouped
  | _ => True

theorem grouped_of_isOperand {tree : Node} (operand : tree.isOperand = true) : tree.Grouped := by
  cases tree <;> trivial

/-- The operands of a view are operands. -/
theorem isOperand_first_inorder (tree : Node) : tree.inorder.first.isOperand = true := by
  induction tree using spineInduction with
  | operand tree operand => rw [inorder_of_isOperand operand]; exact operand
  | binary operator left right leftIH _ => exact leftIH

/-- The operators in the view of a grouped tree bind at least as tightly as the
tree. -/
theorem priority_le_of_mem_inorder {tree : Node} (grouped : tree.Grouped)
    {link : Operator × Node} (mem : link ∈ tree.inorder.rest) :
    tree.priority ≤ link.1.priority := by
  induction tree using spineInduction with
  | operand tree operand =>
      rw [inorder_of_isOperand operand] at mem
      cases mem
  | binary operator left right leftIH rightIH =>
      obtain ⟨leftTight, rightTight, leftGrouped, rightGrouped⟩ := grouped
      rcases List.mem_append.mp mem with inLeft | mem
      · exact leftTight.trans (leftIH leftGrouped inLeft)
      · rcases List.mem_cons.mp mem with rfl | inRight
        · exact le_rfl
        · exact rightTight.le.trans (rightIH rightGrouped inRight)

/-! ## Attaching -/

/-- An operator goes on top of a tree that binds at least as tightly. -/
theorem attach_of_priority_le {tree : Node} {operator : Operator}
    (tight : operator.priority ≤ tree.priority) (right : Node) :
    tree.attach operator right = binary operator tree right := by
  cases tree with
  | binary inner left innerRight => exact if_neg tight.not_gt
  | _ => rfl

/-- An operator goes into the right operand of a tree that binds less tightly. -/
theorem attach_binary_of_lt {inner operator : Operator}
    (loose : inner.priority < operator.priority) (left innerRight right : Node) :
    (binary inner left innerRight).attach operator right =
      binary inner left (innerRight.attach operator right) :=
  if_pos loose

@[simp]
theorem priority_attach (tree : Node) (operator : Operator) (right : Node) :
    (tree.attach operator right).priority = min tree.priority operator.priority := by
  by_cases tight : operator.priority ≤ tree.priority
  · rw [attach_of_priority_le tight, priority_binary, min_eq_right tight]
  · cases tree with
    | binary inner left innerRight =>
        rw [attach_binary_of_lt (not_le.mp tight)]
        exact (min_eq_left (not_le.mp tight).le).symm
    | _ => exact absurd operator.priority_lt_operandPriority.le tight

/-- Attaching puts the operator and its operand at the end of the view. -/
theorem inorder_attach (tree : Node) (operator : Operator) {right : Node}
    (operand : right.isOperand = true) :
    (tree.attach operator right).inorder = tree.inorder.extend [(operator, right)] := by
  have onTop (tree : Node) : (binary operator tree right).inorder =
      tree.inorder.extend [(operator, right)] := by
    rw [inorder_binary, inorder_of_isOperand operand]
    rfl
  induction tree using spineInduction with
  | operand tree isOperand =>
      rw [attach_of_priority_le, onTop]
      exact (priority_of_isOperand isOperand).symm ▸ operator.priority_lt_operandPriority.le
  | binary inner left innerRight _ rightIH =>
      by_cases tight : operator.priority ≤ inner.priority
      · rw [attach_of_priority_le tight, onTop]
      · rw [attach_binary_of_lt (not_le.mp tight), inorder_binary, rightIH, inorder_binary,
          Chain.join_extend]

/-- Attaching keeps a tree grouped. -/
theorem Grouped.attach {tree : Node} (grouped : tree.Grouped) (operator : Operator) {right : Node}
    (operand : right.isOperand = true) : (tree.attach operator right).Grouped := by
  have rightTight : operator.priority < right.priority :=
    priority_of_isOperand operand ▸ operator.priority_lt_operandPriority
  have onTop {tree : Node} (grouped : tree.Grouped) (tight : operator.priority ≤ tree.priority) :
      (tree.attach operator right).Grouped := by
    rw [attach_of_priority_le tight]
    exact ⟨tight, rightTight, grouped, grouped_of_isOperand operand⟩
  induction tree using spineInduction with
  | operand tree isOperand =>
      exact onTop grouped
        ((priority_of_isOperand isOperand).symm ▸ operator.priority_lt_operandPriority.le)
  | binary inner left innerRight _ rightIH =>
      by_cases tight : operator.priority ≤ inner.priority
      · exact onTop grouped tight
      · obtain ⟨leftTight, innerTight, leftGrouped, innerGrouped⟩ := grouped
        rw [attach_binary_of_lt (not_le.mp tight)]
        refine ⟨leftTight, ?_, leftGrouped, rightIH innerGrouped⟩
        rw [priority_attach]
        exact lt_min innerTight (not_le.mp tight)

/-- Attach operators with their right operands one after the other. -/
def attachAll (tree : Node) (links : List (Operator × Node)) : Node :=
  links.foldl (fun tree link => tree.attach link.1 link.2) tree

@[simp]
theorem attachAll_nil (tree : Node) : tree.attachAll [] = tree :=
  rfl

@[simp]
theorem attachAll_cons (tree : Node) (link : Operator × Node) (links : List (Operator × Node)) :
    tree.attachAll (link :: links) = (tree.attach link.1 link.2).attachAll links :=
  rfl

theorem attachAll_append (tree : Node) (links more : List (Operator × Node)) :
    tree.attachAll (links ++ more) = (tree.attachAll links).attachAll more :=
  List.foldl_append

theorem inorder_attachAll {links : List (Operator × Node)}
    (operands : ∀ link ∈ links, link.2.isOperand = true) (tree : Node) :
    (tree.attachAll links).inorder = tree.inorder.extend links := by
  induction links generalizing tree with
  | nil => simp
  | cons link links ih =>
      rw [attachAll_cons, ih fun link mem => operands link (List.mem_cons_of_mem _ mem),
        inorder_attach _ _ (operands link List.mem_cons_self), Chain.extend_extend]
      rfl

theorem Grouped.attachAll {links : List (Operator × Node)}
    (operands : ∀ link ∈ links, link.2.isOperand = true) {tree : Node} (grouped : tree.Grouped) :
    (tree.attachAll links).Grouped := by
  induction links generalizing tree with
  | nil => exact grouped
  | cons link links ih =>
      exact ih (fun link mem => operands link (List.mem_cons_of_mem _ mem))
        (grouped.attach link.1 (operands link List.mem_cons_self))

/-- Operators that bind tighter than the one on top are attached to its right
operand. -/
theorem attachAll_binary {operator : Operator} {links : List (Operator × Node)}
    (tight : ∀ link ∈ links, operator.priority < link.1.priority) (left right : Node) :
    (binary operator left right).attachAll links =
      binary operator left (right.attachAll links) := by
  induction links generalizing right with
  | nil => rfl
  | cons link links ih =>
      rw [attachAll_cons, attach_binary_of_lt (tight link List.mem_cons_self),
        ih fun link mem => tight link (List.mem_cons_of_mem _ mem)]
      rfl

/-- Attaching the view of a grouped tree rebuilds the tree. -/
theorem attachAll_inorder {tree : Node} (grouped : tree.Grouped) :
    tree.inorder.first.attachAll tree.inorder.rest = tree := by
  induction tree using spineInduction with
  | operand tree operand => simp [inorder_of_isOperand operand]
  | binary operator left right leftIH rightIH =>
      obtain ⟨leftTight, rightTight, leftGrouped, rightGrouped⟩ := grouped
      have tight (link) (mem : link ∈ right.inorder.rest) :
          operator.priority < link.1.priority :=
        rightTight.trans_le (priority_le_of_mem_inorder rightGrouped mem)
      calc
        left.inorder.first.attachAll
            (left.inorder.rest ++ (operator, right.inorder.first) :: right.inorder.rest) =
            (left.attach operator right.inorder.first).attachAll right.inorder.rest := by
          rw [attachAll_append, leftIH leftGrouped, attachAll_cons]
        _ = binary operator left (right.inorder.first.attachAll right.inorder.rest) := by
          rw [attach_of_priority_le leftTight, attachAll_binary tight]
        _ = binary operator left right := by rw [rightIH rightGrouped]

/-- A grouped tree is determined by its view. -/
theorem Grouped.eq_of_inorder_eq {tree other : Node} (grouped : tree.Grouped)
    (otherGrouped : other.Grouped) (same : tree.inorder = other.inorder) : tree = other := by
  rw [← attachAll_inorder grouped, same, attachAll_inorder otherGrouped]

end Node

/-! ## The tree of a chain -/

namespace Chain

/-- Nothing in a chain is itself an operator with operands. -/
def OfOperands (chain : Chain) : Prop :=
  chain.first.isOperand = true ∧ ∀ link ∈ chain.rest, link.2.isOperand = true

/-- Regrouping the tree that follows the text attaches its links in order. -/
theorem regroup_foldl (links : List (Operator × Node)) (tree : Node) :
    (links.foldl (fun tree link => Node.binary link.1 tree link.2) tree).regroup =
      tree.regroup.attachAll links := by
  induction links generalizing tree with
  | nil => rfl
  | cons link links ih => exact ih (.binary link.1 tree link.2)

theorem tree_eq_attachAll {chain : Chain} (operands : chain.OfOperands) :
    chain.tree = chain.first.attachAll chain.rest := by
  rw [tree, lexical, regroup_foldl, Node.regroup_of_isOperand operands.1]

/-- The tree of a chain has the chain as its view. -/
theorem inorder_tree {chain : Chain} (operands : chain.OfOperands) :
    chain.tree.inorder = chain := by
  rw [tree_eq_attachAll operands, Node.inorder_attachAll operands.2,
    Node.inorder_of_isOperand operands.1]
  rfl

/-- The tree of a chain is grouped. -/
theorem grouped_tree {chain : Chain} (operands : chain.OfOperands) : chain.tree.Grouped := by
  rw [tree_eq_attachAll operands]
  exact (Node.grouped_of_isOperand operands.1).attachAll operands.2

end Chain

/-- A grouped tree is the tree of its view. -/
theorem Node.tree_inorder {tree : Node} (grouped : tree.Grouped) : tree.inorder.tree = tree := by
  rw [Chain.tree, Chain.lexical, Chain.regroup_foldl,
    regroup_of_isOperand tree.isOperand_first_inorder, attachAll_inorder grouped]

end FieldRules
