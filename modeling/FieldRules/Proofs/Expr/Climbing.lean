import FieldRules.Proofs.Expr.Precedence

/-!
# Precedence climbing

Climbing reads a chain from left to right and never regroups a tree: an operator
is applied once its right operand is complete, which takes in all operators
behind it that bind tighter.  It yields the tree of the chain.
-/

namespace FieldRules

variable [RegexLibrary]

namespace Node

/-- Extend a left operand by the operators in front of a list of links that bind
at least as tightly as `least`, and return the links that remain.  The right
operand of an operator is climbed to first, from the operators that bind tighter
than it. -/
def climb (least : Nat) (left : Node) (links : List (Operator × Node)) :
    Node × { rest : List (Operator × Node) // rest.length ≤ links.length } :=
  match links with
  | [] => (left, ⟨[], Nat.le_refl _⟩)
  | (operator, operand) :: links =>
      if operator.priority < least then (left, ⟨(operator, operand) :: links, Nat.le_refl _⟩)
      else
        let (right, ⟨rest, shorter⟩) := climb (operator.priority + 1) operand links
        let (tree, ⟨remaining, shorter'⟩) := climb least (.binary operator left right) rest
        (tree, ⟨remaining, (shorter'.trans shorter).trans (Nat.le_succ _)⟩)
  termination_by links.length
  decreasing_by
    · simp
    · exact Nat.lt_succ_of_le shorter

/-- What climbing to `tree` has done to `left` and the links behind it. -/
structure Climbed (least : Nat) (left : Node) (links : List (Operator × Node)) (tree : Node)
    (rest : List (Operator × Node)) : Prop where
  grouped : tree.Grouped
  least_le : least ≤ tree.priority
  /-- The links that are taken stand at the end of the view. -/
  view : ∃ taken, links = taken ++ rest ∧ tree.inorder = left.inorder.extend taken
  /-- The first link that remains binds less tightly. -/
  stops : ∀ link ∈ rest.head?, link.1.priority < least

/-- Climbing is right from a grouped left operand that binds at least as tightly
as the operator behind it. -/
theorem climbed_climb {least : Nat} {left : Node} {links : List (Operator × Node)}
    (operands : ∀ link ∈ links, link.2.isOperand = true) (grouped : left.Grouped)
    (least_le : least ≤ left.priority)
    (tight : ∀ link ∈ links.head?, link.1.priority ≤ left.priority) :
    Climbed least left links (climb least left links).1 (climb least left links).2 := by
  match links with
  | [] =>
      rw [climb]
      exact ⟨grouped, least_le, ⟨[], rfl, by simp⟩, by simp⟩
  | (operator, operand) :: links =>
      rw [climb]
      split_ifs with loose
      · exact ⟨grouped, least_le, ⟨[], rfl, by simp⟩, by simpa using loose⟩
      · have isOperand : operand.isOperand = true := operands (operator, operand) (by simp)
        have priority := priority_of_isOperand isOperand
        have right : Climbed (operator.priority + 1) operand links _ _ := climbed_climb
          (fun link mem => operands link (List.mem_cons_of_mem _ mem))
          (grouped_of_isOperand isOperand) (priority ▸ operator.priority_lt_operandPriority)
          (fun link _ => priority ▸ link.1.priority_lt_operandPriority.le)
        generalize climb (operator.priority + 1) operand links = result at right ⊢
        obtain ⟨tree, rest, shorter⟩ := result
        obtain ⟨taken, split, view⟩ := right.view
        have onTop : (binary operator left tree).Grouped :=
          ⟨tight (operator, operand) (by simp), right.least_le, grouped, right.grouped⟩
        have whole : Climbed least _ rest _ _ := climbed_climb
          (fun link mem => operands link (by simp [split, mem])) onTop (not_lt.mp loose)
          (fun link mem => Nat.lt_succ_iff.mp (right.stops link mem))
        obtain ⟨more, splitMore, viewMore⟩ := whole.view
        refine ⟨whole.grouped, whole.least_le,
          ⟨(operator, operand) :: (taken ++ more), ?_, ?_⟩, whole.stops⟩
        · simp only [List.cons_append, List.append_assoc, ← splitMore]
          exact congrArg _ split
        · rw [viewMore, inorder_binary, view, inorder_of_isOperand isOperand]
          simp [Chain.extend, Chain.join]
  termination_by links.length

end Node

namespace Chain

/-- The tree that climbing finds for a chain. -/
def climb (chain : Chain) : Node :=
  (chain.first.climb 0 chain.rest).1

/-- Regrouping and climbing agree. -/
theorem tree_eq_climb {chain : Chain} (operands : chain.OfOperands) :
    chain.tree = chain.climb := by
  have climbed := Node.climbed_climb operands.2 (Node.grouped_of_isOperand operands.1)
    (Nat.zero_le _) fun link _ =>
      Node.priority_of_isOperand operands.1 ▸ link.1.priority_lt_operandPriority.le
  obtain ⟨taken, split, view⟩ := climbed.view
  have nothingRemains : (chain.first.climb 0 chain.rest).2.1 = [] :=
    List.head?_eq_none_iff.mp <| Option.eq_none_iff_forall_not_mem.mpr fun link mem =>
      absurd (climbed.stops link mem) (Nat.not_lt_zero _)
  rw [nothingRemains, List.append_nil] at split
  refine (grouped_tree operands).eq_of_inorder_eq climbed.grouped ?_
  rw [inorder_tree operands, climb, view, Node.inorder_of_isOperand operands.1, ← split]
  rfl

end Chain

end FieldRules
