import FieldRules.Expr.Parser
import FieldRules.Proofs.Expr.Climbing
import FieldRules.Proofs.Expr.Operands
import FieldRules.Proofs.Expr.Subtrees

/-!
# Expressions are read with their operators grouped

Every expression that is read is the regrouped tree of its chain, and so is
every expression inside it, since texts in brackets are read by the same reader.
So all operators of the tree, at any depth, respect their priorities, and the
tree is the one that precedence climbing finds.
-/

namespace FieldRules

variable [RegexLibrary]

/-! ## Operators at any depth -/

namespace Node

/-- Every operator of a tree, at any depth, binds at most as tightly as its left
operand and less tightly than its right one. -/
def GroupedThroughout (tree : Node) : Prop :=
  ∀ operator left right, binary operator left right ∈ tree.subtrees →
    operator.priority ≤ left.priority ∧ operator.priority < right.priority

theorem groupedThroughout_of_grouped {tree : Node} (grouped : tree.Grouped)
    (first : tree.inorder.first.GroupedThroughout)
    (rest : ∀ link ∈ tree.inorder.rest, link.2.GroupedThroughout) : tree.GroupedThroughout := by
  induction tree using spineInduction with
  | operand tree operand => rwa [inorder_of_isOperand operand] at first
  | binary operator left right leftIH rightIH =>
      obtain ⟨leftTight, rightTight, leftGrouped, rightGrouped⟩ := grouped
      have inLeft := leftIH leftGrouped first fun link mem =>
        rest link (List.mem_append_left _ mem)
      have inRight := rightIH rightGrouped
        (rest (operator, right.inorder.first) (List.mem_append_right _ List.mem_cons_self))
        fun link mem => rest link (List.mem_append_right _ (List.mem_cons_of_mem _ mem))
      intro inner innerLeft innerRight mem
      simp only [subtrees, List.mem_cons, List.mem_append, binary.injEq] at mem
      rcases mem with ⟨rfl, rfl, rfl⟩ | mem | mem
      · exact ⟨leftTight, rightTight⟩
      · exact inLeft _ _ _ mem
      · exact inRight _ _ _ mem

theorem groupedThroughout_of_listSubtrees {nodes : List Node}
    (grouped : ∀ node ∈ nodes, node.GroupedThroughout) {operator : Operator} {left right : Node}
    (mem : binary operator left right ∈ listSubtrees nodes) :
    operator.priority ≤ left.priority ∧ operator.priority < right.priority := by
  obtain ⟨node, inNodes, mem⟩ := mem_listSubtrees_iff.mp mem
  exact grouped node inNodes _ _ _ mem

theorem groupedThroughout_current : current.GroupedThroughout := by
  simp [GroupedThroughout, current, subtrees, listSubtrees]

end Node

/-! ## Reading -/

namespace Expr

open FieldRules.Text

variable {registry : Registry} {expression : ExpressionReader}
  {operand : List Char → Reading (Node × List Char)} {text : List Char}

theorem OperandOver.isOperand {node : Node} (shape : OperandOver registry expression node) :
    node.isOperand = true := by
  cases shape <;> rfl

/-- An operand is grouped throughout when all expressions inside it are. -/
theorem OperandOver.groupedThroughout {node : Node} (shape : OperandOver registry expression node)
    (inside : ∀ tree, Yields expression tree → tree.GroupedThroughout) :
    node.GroupedThroughout := by
  intro operator left right mem
  cases shape with
  | selector read =>
      simp only [Node.subtrees, List.mem_cons, reduceCtorEq, false_or] at mem
      exact Node.groupedThroughout_of_listSubtrees
        (fun subscript inList => inside _ (read subscript inList)) mem
  | group read =>
      simp only [Node.subtrees, List.mem_cons, reduceCtorEq, false_or] at mem
      exact inside _ read _ _ _ mem
  | call _ read =>
      simp only [Node.subtrees, List.mem_cons, reduceCtorEq, false_or] at mem
      refine Node.groupedThroughout_of_listSubtrees (fun argument inList => ?_) mem
      rcases read argument inList with rfl | read
      · exact Node.groupedThroughout_current
      · exact inside _ read
  | _ => simp [Node.subtrees] at mem

/-- What holds of every operand that is read holds of the right operands of
links. -/
theorem readLinks_sound {property : Node → Prop}
    (sound : ∀ text node after, operand text = .ok (node, after) → property node)
    {steps : Nat} {links : List (Operator × Node)}
    (read : readLinks operand steps text = .ok links) : ∀ link ∈ links, property link.2 := by
  induction steps generalizing text links with
  | zero =>
      cases read
      simp
  | succ steps ih =>
      rw [readLinks] at read
      split at read
      · cases read
        simp
      · split at read
        · cases read
        · split at read
          · cases read
          · obtain ⟨⟨right, after⟩, rightRead, read⟩ := bind_eq_ok_iff.mp read
            obtain ⟨more, moreRead, same⟩ := bind_eq_ok_iff.mp read
            cases same
            intro link mem
            rcases List.mem_cons.mp mem with rfl | inMore
            · exact sound _ _ _ rightRead
            · exact ih moreRead link inMore

/-- What holds of every operand that is read holds of all operands of a chain. -/
theorem readChain_sound {property : Node → Prop}
    (sound : ∀ text node after, operand text = .ok (node, after) → property node)
    {chain : Chain} (read : readChain operand text = .ok chain) :
    property chain.first ∧ ∀ link ∈ chain.rest, property link.2 := by
  rw [readChain] at read
  split at read
  · cases read
  · obtain ⟨⟨first, rest⟩, firstRead, read⟩ := bind_eq_ok_iff.mp read
    obtain ⟨links, linksRead, same⟩ := bind_eq_ok_iff.mp read
    cases same
    exact ⟨sound _ _ _ firstRead, readLinks_sound sound linksRead⟩

theorem readChain_ofOperands {chain : Chain}
    (read : readChain (readOperand registry expression) text = .ok chain) : chain.OfOperands :=
  readChain_sound (fun _ _ _ taken => (readOperand_sound taken).isOperand) read

/-- An expression is grouped throughout, whatever depth it was read with. -/
theorem readNode_groupedThroughout {depth : Nat} {tree : Node}
    (read : readNode registry depth text = .ok tree) : tree.GroupedThroughout := by
  induction depth generalizing text tree with
  | zero => cases read
  | succ depth ih =>
      obtain ⟨chain, chainRead, same⟩ := bind_eq_ok_iff.mp read
      cases same
      have operands := readChain_ofOperands chainRead
      have inside := readChain_sound (fun _ _ _ taken =>
        (readOperand_sound taken).groupedThroughout fun tree ⟨_, treeRead⟩ => ih treeRead)
        chainRead
      refine Node.groupedThroughout_of_grouped (Chain.grouped_tree operands) ?_ ?_
      · rw [Chain.inorder_tree operands]
        exact inside.1
      · rw [Chain.inorder_tree operands]
        exact inside.2

end Expr

/-- The chain of operands and operators that a text is read as. -/
def Chain.ofText (registry : Registry) (text : List Char) : Expr.Reading Chain :=
  Expr.readChain (Expr.readOperand registry (Expr.readNode registry text.length)) text

/-- Every text that is read as an expression yields the regrouped tree of its
chain: the tree shows the chain from left to right, and its operators respect
their priorities at every depth.  Regrouping the tree that follows the text of
any chain of operands gives the only grouped tree with that chain as its view,
which is the one that precedence climbing finds. -/
theorem expression_grouped_by_precedence :
    (∀ registry text tree, Node.ofText registry text = .ok tree →
      ∃ chain, Chain.ofText registry text = .ok chain ∧ chain.OfOperands ∧
        tree = chain.lexical.regroup ∧ tree.inorder = chain ∧
        ∀ operator left right, .binary operator left right ∈ tree.subtrees →
          operator.priority ≤ left.priority ∧ operator.priority < right.priority) ∧
    ∀ chain : Chain, chain.OfOperands →
      chain.lexical.regroup.inorder = chain ∧ chain.lexical.regroup.Grouped ∧
        (∀ other : Node, other.Grouped → other.inorder = chain →
          other = chain.lexical.regroup) ∧
        chain.lexical.regroup = chain.climb := by
  constructor
  · intro registry text tree read
    obtain ⟨chain, chainRead, same⟩ := bind_eq_ok_iff.mp read
    cases same
    have operands := Expr.readChain_ofOperands chainRead
    exact ⟨chain, chainRead, operands, rfl, Chain.inorder_tree operands,
      Expr.readNode_groupedThroughout read⟩
  · intro chain operands
    refine ⟨Chain.inorder_tree operands, Chain.grouped_tree operands, ?_,
      Chain.tree_eq_climb operands⟩
    intro other grouped view
    exact grouped.eq_of_inorder_eq (Chain.grouped_tree operands)
      (view.trans (Chain.inorder_tree operands).symm)

end FieldRules

namespace FieldRules

attribute [local instance] RegexLibrary.empty

/-- In `$+$k*$v` the product is regrouped below the sum. -/
theorem product_grouped_under_sum :
    Node.ofText .empty ['$', '+', '$', 'k', '*', '$', 'v'] =
        .ok (.binary .add .current (.binary .mul (.selector .key []) (.selector .value []))) ∧
      Chain.ofText .empty ['$', '+', '$', 'k', '*', '$', 'v'] =
        .ok ⟨.current, [(.add, .selector .key []), (.mul, .selector .value [])]⟩ ∧
      Chain.climb ⟨.current, [(.add, .selector .key []), (.mul, .selector .value [])]⟩ =
        .binary .add .current (.binary .mul (.selector .key []) (.selector .value [])) := by
  have read : Node.ofText .empty ['$', '+', '$', 'k', '*', '$', 'v'] =
      .ok (.binary .add .current (.binary .mul (.selector .key []) (.selector .value []))) := rfl
  obtain ⟨chain, chainRead, operands, tree, view, -⟩ :=
    expression_grouped_by_precedence.1 _ _ _ read
  obtain rfl : chain = ⟨.current, [(.add, .selector .key []), (.mul, .selector .value [])]⟩ :=
    view.symm
  obtain ⟨-, -, -, climb⟩ := expression_grouped_by_precedence.2 _ operands
  exact ⟨read, chainRead, climb.symm.trans tree.symm⟩

end FieldRules
