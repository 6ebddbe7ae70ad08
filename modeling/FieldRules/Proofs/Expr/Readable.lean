import FieldRules.Expr.Parser
import FieldRules.Proofs.Expr.Precedence
import FieldRules.Proofs.Expr.Tokens
import FieldRules.Proofs.Outcome
import FieldRules.Proofs.Text.Blank
import FieldRules.Proofs.Text.SelfContained
import Mathlib.Tactic.FinCases

/-!
# Texts that are read back

Operands are taken off a text one after the other.  So the text of a tree is
read as the left-to-right view of the tree, whatever terminator follows, and the
tree of that view is the tree itself because its operators respect their
priorities.
-/

namespace FieldRules.Expr

open FieldRules.Text

variable [RegexLibrary]

variable {registry : Registry} {operand : List Char → Reading (Node × List Char)}
  {text : List Char}

/-! ## Reading a chain off the front of a text -/

/-- Reading operands takes a text off as a chain: the first operand first, and
then its links, whatever terminator follows. -/
def ReadsAs (operand : List Char → Reading (Node × List Char)) (text : List Char)
    (chain : Chain) : Prop :=
  ∃ head tail, text = head ++ tail ∧ chain.rest.length ≤ tail.length ∧
    ∀ after, atTerminator after = true →
      operand (text ++ after) = .ok (chain.first, tail ++ after) ∧
        ∀ steps, readLinks operand (chain.rest.length + steps) (tail ++ after) =
          (readLinks operand steps after).map (chain.rest ++ ·)

theorem ReadsAs.of_operand {node : Node}
    (taken : ∀ after, atTerminator after = true → operand (text ++ after) = .ok (node, after)) :
    ReadsAs operand text ⟨node, []⟩ := by
  refine ⟨text, [], by simp, Nat.le_refl 0, fun after ends => ⟨taken after ends, fun steps => ?_⟩⟩
  rw [List.length_nil, Nat.zero_add, List.nil_append]
  cases readLinks operand steps after <;> rfl

/-- What can stand behind an operator. -/
def StartsOperand (text : List Char) : Prop :=
  ∃ c ∈ text.head?, isLayout c = false ∧ c ≠ '='

omit [RegexLibrary] in
theorem StartsOperand.append (starts : StartsOperand text) (after : List Char) :
    StartsOperand (text ++ after) := by
  obtain ⟨c, head, shown⟩ := starts
  obtain ⟨rest, rfl⟩ : ∃ rest, text = c :: rest := List.head?_eq_some_iff.mp head
  exact ⟨c, rfl, shown⟩

/-- An operator with layout around it is one link. -/
theorem readLinks_link {before gap : List Char} (gap_before : IsGap before) (gap_after : IsGap gap)
    (operator : Operator) (starts : StartsOperand text) (steps : Nat) :
    readLinks operand (steps + 1) (before ++ operator.symbol ++ gap ++ text) = (do
      let (right, after) ← operand text
      let links ← readLinks operand steps after
      .ok ((operator, right) :: links)) := by
  obtain ⟨c, head, noLayout, noEquals⟩ := starts
  obtain ⟨rest, rfl⟩ : ∃ rest, text = c :: rest := List.head?_eq_some_iff.mp head
  obtain ⟨s, symbol, split, -, symbolShown⟩ := symbol_head operator
  have atSymbol : skipLayout (before ++ operator.symbol ++ gap ++ c :: rest) =
      operator.symbol ++ (gap ++ c :: rest) := by
    rw [List.append_assoc, List.append_assoc]
    exact skipLayout_append gap_before (by simp [split, symbolShown])
  have atOperand : skipLayout (gap ++ c :: rest) = c :: rest :=
    skipLayout_append gap_after (by simp [noLayout])
  have symbolEnds : (gap ++ c :: rest).head? ≠ some '=' := by
    cases gap with
    | nil => simpa using noEquals
    | cons d gap =>
        rintro ⟨⟩
        exact absurd (gap_after '=' List.mem_cons_self) (by decide)
  have operatorRead : readOperator (s :: symbol ++ (gap ++ c :: rest)) =
      some (operator, gap ++ c :: rest) :=
    split ▸ readOperator_symbol operator symbolEnds
  rw [readLinks, atSymbol, split, List.cons_append]
  simp only
  rw [← List.cons_append, operatorRead]
  simp only [atOperand]

/-- Two texts that are read as chains, with an operator between them, are read as
the joined chain. -/
theorem ReadsAs.join {left right : Chain} {leftText before gap rightText : List Char}
    (leftReads : ReadsAs operand leftText left) (rightReads : ReadsAs operand rightText right)
    (gap_before : IsGap before) (gap_after : IsGap gap) (operator : Operator)
    (starts : StartsOperand rightText) :
    ReadsAs operand (leftText ++ (before ++ operator.symbol ++ gap) ++ rightText)
      (left.join operator right) := by
  obtain ⟨leftHead, leftTail, rfl, leftCount, leftReads⟩ := leftReads
  obtain ⟨rightHead, rightTail, rfl, rightCount, rightReads⟩ := rightReads
  refine ⟨leftHead, leftTail ++ (before ++ operator.symbol ++ gap) ++ (rightHead ++ rightTail),
    by simp, ?_, fun after ends => ?_⟩
  · obtain ⟨s, symbol, split, -, -⟩ := symbol_head operator
    simp only [Chain.join, List.length_append, List.length_cons, split]
    omega
  · have symbolEnds :
        atTerminator (operator.symbol ++ (gap ++ (rightHead ++ rightTail ++ after))) = true :=
      atTerminator_symbol operator
    have middle : atTerminator
        (before ++ operator.symbol ++ gap ++ (rightHead ++ rightTail ++ after)) = true := by
      simpa using atTerminator_of_gap gap_before symbolEnds
    obtain ⟨leftTaken, leftLinks⟩ := leftReads _ middle
    obtain ⟨rightTaken, rightLinks⟩ := rightReads after ends
    constructor
    · simpa [Chain.join] using leftTaken
    · intro steps
      have count : (left.join operator right).rest.length + steps =
          left.rest.length + (right.rest.length + steps + 1) := by
        simp only [Chain.join, List.length_append, List.length_cons]
        omega
      have split : leftTail ++ (before ++ operator.symbol ++ gap) ++ (rightHead ++ rightTail) ++
          after =
            leftTail ++ (before ++ operator.symbol ++ gap ++ (rightHead ++ rightTail ++ after)) := by
        simp
      rw [count, split, leftLinks, readLinks_link gap_before gap_after operator (starts.append after),
        rightTaken, bind_ok]
      simp only [rightLinks]
      cases readLinks operand steps after <;> simp [Except.map, Chain.join]

/-! ## Texts that are read as chains -/

/-- A text is read as a chain in front of every terminator: it starts and ends
visibly, and reading operands takes it off as the chain. -/
structure LaidOut (registry : Registry) (chain : Chain) (text : List Char) : Prop where
  trimmed : Trimmed text
  starts : StartsOperand text
  reads : ∀ depth, text.length ≤ depth →
    ReadsAs (readOperand registry (readNode registry depth)) text chain

variable {chain : Chain} {before after : List Char}

theorem LaidOut.of_operand {node : Node} (trimmed : Trimmed text) (starts : StartsOperand text)
    (taken : ∀ depth, text.length ≤ depth → ∀ after, atTerminator after = true →
      readOperand registry (Expr.readNode registry depth) (text ++ after) = .ok (node, after)) :
    LaidOut registry ⟨node, []⟩ text where
  trimmed
  starts
  reads depth enough := .of_operand (taken depth enough)

/-- Two texts with an operator between them. -/
theorem LaidOut.join {left right : Chain} {leftText gap rightText : List Char}
    (leftLaidOut : LaidOut registry left leftText)
    (rightLaidOut : LaidOut registry right rightText) (gap_before : IsGap before)
    (gap_after : IsGap gap) (operator : Operator) :
    LaidOut registry (left.join operator right)
      (leftText ++ (before ++ operator.symbol ++ gap) ++ rightText) where
  trimmed := leftLaidOut.trimmed.join rightLaidOut.trimmed _
  starts := by
    rw [List.append_assoc]
    exact leftLaidOut.starts.append _
  reads depth enough := by
    simp only [List.length_append] at enough
    exact (leftLaidOut.reads depth (by omega)).join (rightLaidOut.reads depth (by omega))
      gap_before gap_after operator rightLaidOut.starts

/-- A whole text with layout at both ends is read as the tree of its chain. -/
theorem LaidOut.readNode (laidOut : LaidOut registry chain text) (gap_before : IsGap before)
    (gap_after : IsGap after) {depth : Nat} (fits : (before ++ text ++ after).length < depth) :
    readNode registry depth (before ++ text ++ after) = .ok chain.tree := by
  obtain ⟨depth, rfl⟩ : ∃ inner, depth = inner + 1 := ⟨depth - 1, by omega⟩
  have enough : text.length ≤ depth := by
    simp only [List.length_append] at fits
    omega
  obtain ⟨head, tail, split, count, reads⟩ := laidOut.reads depth enough
  have ends : atTerminator after = true := by
    have atEnd : atTerminator [] = true := rfl
    simpa using atTerminator_of_gap gap_after atEnd
  obtain ⟨taken, links⟩ := reads after ends
  obtain ⟨c, start, noLayout, -⟩ := laidOut.starts.append after
  obtain ⟨rest, shape⟩ : ∃ rest, text ++ after = c :: rest := List.head?_eq_some_iff.mp start
  have skipped : skipLayout (before ++ text ++ after) = c :: rest := by
    rw [List.append_assoc, shape]
    exact skipLayout_append gap_before (by simp [noLayout])
  have atEnd : skipLayout after = [] := by
    have stops : ∀ c ∈ ([] : List Char).head?, isLayout c = false := by simp
    simpa using skipLayout_append gap_after stops
  have countAll : chain.rest.length ≤ (tail ++ after).length := by
    rw [List.length_append]
    omega
  obtain ⟨steps, total⟩ := Nat.exists_eq_add_of_le countAll
  rw [shape] at taken
  have linksRead : readLinks (readOperand registry (Expr.readNode registry depth))
      ((tail ++ after).length + 1) (tail ++ after) = .ok chain.rest := by
    rw [total, Nat.add_assoc, links, readLinks, atEnd]
    simp [Except.map]
  rw [Expr.readNode, readChain, skipped]
  simp only [taken, bind_ok, linksRead]

/-! ## Texts that are read back -/

/-- A text is read back as a tree wherever it stands: it is self-contained and
starts and ends visibly, and reading operands takes it off as the view of the
tree. -/
structure Readable (registry : Registry) (tree : Node) (text : List Char) : Prop where
  contained : SelfContained 0 text
  trimmed : Trimmed text
  starts : StartsOperand text
  grouped : tree.Grouped
  reads : ∀ depth, text.length ≤ depth →
    ReadsAs (readOperand registry (readNode registry depth)) text tree.inorder

variable {tree : Node}

theorem Readable.laidOut (readable : Readable registry tree text) :
    LaidOut registry tree.inorder text where
  trimmed := readable.trimmed
  starts := readable.starts
  reads := readable.reads

/-- A whole text with layout at both ends is read as its tree. -/
theorem Readable.readNode (readable : Readable registry tree text) (gap_before : IsGap before)
    (gap_after : IsGap after) {depth : Nat} (fits : (before ++ text ++ after).length < depth) :
    readNode registry depth (before ++ text ++ after) = .ok tree :=
  Node.tree_inorder readable.grouped ▸ readable.laidOut.readNode gap_before gap_after fits

theorem Readable.of_operand (operand : tree.isOperand = true) (contained : SelfContained 0 text)
    (trimmed : Trimmed text) (starts : StartsOperand text)
    (taken : ∀ depth, text.length ≤ depth → ∀ after, atTerminator after = true →
      readOperand registry (Expr.readNode registry depth) (text ++ after) = .ok (tree, after)) :
    Readable registry tree text where
  contained
  trimmed
  starts
  grouped := Node.grouped_of_isOperand operand
  reads depth enough := by
    rw [Node.inorder_of_isOperand operand]
    exact .of_operand (taken depth enough)

omit [RegexLibrary] in
theorem symbol_not_marks (operator : Operator) : ∀ c ∈ operator.symbol, c ∉ marks := by
  intro c mem
  cases operator <;> fin_cases mem <;> decide

omit [RegexLibrary] in
theorem symbol_contained (operator : Operator) : SelfContained 0 operator.symbol :=
  .ofPlain (symbol_not_marks operator)

/-- Two texts with an operator between them that respects their priorities. -/
theorem Readable.binary {left right : Node} {leftText before gap rightText : List Char}
    (leftReadable : Readable registry left leftText)
    (rightReadable : Readable registry right rightText) {operator : Operator}
    (left_tight : operator.priority ≤ left.priority)
    (right_tight : operator.priority < right.priority) (gap_before : IsGap before)
    (gap_after : IsGap gap) :
    Readable registry (.binary operator left right)
      (leftText ++ (before ++ operator.symbol ++ gap) ++ rightText) := by
  have joined := leftReadable.laidOut.join rightReadable.laidOut gap_before gap_after operator
  exact {
    contained :=
      (leftReadable.contained.append
        (((SelfContained.ofGap gap_before).append (symbol_contained operator)).append
          (.ofGap gap_after))).append rightReadable.contained
    trimmed := joined.trimmed
    starts := joined.starts
    grouped := ⟨left_tight, right_tight, leftReadable.grouped, rightReadable.grouped⟩
    reads := joined.reads }

end FieldRules.Expr
