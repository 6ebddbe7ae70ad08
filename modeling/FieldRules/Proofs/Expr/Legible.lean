import FieldRules.Proofs.Expr.Grouping
import FieldRules.Proofs.Expr.Portability

/-!
# What trees consist of that are read

A tree that is read consists of parts that can be read: numbers have literals, strings are
contents of quotes, paths are sequences of words, calls have as many arguments as their
callees take, and predicates are called by identifiers of their own.
-/

namespace FieldRules

open FieldRules.Text

variable [RegexLibrary]

/-- A predicate is called by an identifier that no function of the language has. -/
def Callee.Named : Callee → Prop
  | .predicate name _ => isIdentifier name.toList = true ∧ name ∉ builtinNames
  | _ => True

/-- Trees of parts that can be read, before their slots are given. -/
inductive Legible (registry : Registry) : Node → Prop
  | nil : Legible registry .nil
  | bool (b : Bool) : Legible registry (.bool b)
  | number (literal : Number.Literal) : Legible registry (.number literal.numeral.toFloat)
  | text {s : String} (quotable : Quotable s.toList) : Legible registry (.text s)
  | selector {origin : Origin} {subscripts : List Node} (wellFormed : origin.WellFormed)
      (slotless : origin.withSlot (fun _ => 0) = origin)
      (inside : ∀ subscript ∈ subscripts, Legible registry subscript) :
      Legible registry (.selector origin subscripts)
  | group {negate : Bool} {inner : Node} (inside : Legible registry inner) :
      Legible registry (.group negate inner)
  | binary {operator : Operator} {left right : Node} (left_legible : Legible registry left)
      (right_legible : Legible registry right) : Legible registry (.binary operator left right)
  | call {negate : Bool} {callee : Callee} {arguments : List Node}
      (takes : callee.Takes registry arguments.length) (named : callee.Named)
      (inside : ∀ argument ∈ arguments, Legible registry argument) :
      Legible registry (.call negate callee arguments)

variable {registry : Registry}

theorem legible_current : Legible registry .current :=
  .selector trivial rfl (List.forall_mem_nil _)

/-- A tree is legible when all operands of its view are. -/
theorem legible_of_inorder {tree : Node} (first : Legible registry tree.inorder.first)
    (rest : ∀ link ∈ tree.inorder.rest, Legible registry link.2) : Legible registry tree := by
  induction tree using Node.spineInduction with
  | operand tree operand => rwa [Node.inorder_of_isOperand operand] at first
  | binary operator left right leftIH rightIH =>
      rw [Node.inorder_binary, Chain.join] at rest
      refine .binary (leftIH first fun link mem => rest link (List.mem_append_left _ mem)) ?_
      exact rightIH (rest (operator, right.inorder.first) (by simp))
        fun link mem => rest link (List.mem_append_right _ (List.mem_cons_of_mem _ mem))

namespace Expr

variable {expression : ExpressionReader} {text after : List Char} {node : Node}

/-! ## Calls -/

theorem length_of_readAll {arguments : List (List Char)} {nodes : List Node}
    (read : readAll expression arguments = .ok nodes) : nodes.length = arguments.length :=
  (readAll_eq_ok_iff.mp read).length_eq.symm

/-- The current value stands in for arguments, so there is always one. -/
theorem length_of_readAllOrCurrent {arguments : List (List Char)} {nodes : List Node}
    (read : readAllOrCurrent expression arguments = .ok nodes) :
    nodes.length = max 1 arguments.length := by
  rw [readAllOrCurrent] at read
  split_ifs at read with empty
  · cases read
    rw [List.isEmpty_iff.mp empty]
    rfl
  · rw [length_of_readAll read]
    have := List.length_pos_iff.mpr (fun same => empty (List.isEmpty_iff.mpr same))
    omega

omit [RegexLibrary] in
theorem admits_of_checkArity {name : String} {arity : Arity} {arguments : List (List Char)}
    {checked : Unit} (admitted : checkArity name arity arguments = .ok checked) :
    arity.admits arguments.length = true := by
  rw [checkArity] at admitted
  split_ifs at admitted with admits
  exact admits

omit [RegexLibrary] in
theorem builtinArity?_cases {name : String} {arity : Arity}
    (builtin : builtinArity? name = some arity) :
    (name = "len" ∧ arity = ⟨0, some 1⟩) ∨ (name = "regexp" ∧ arity = ⟨1, some 2⟩) ∨
      (name = "sprintf" ∧ arity = ⟨1, none⟩) ∨ (name = "in" ∧ arity = ⟨1, none⟩) ∨
        (name = "range" ∧ arity = ⟨2, some 2⟩) := by
  obtain ⟨before, after, table, -⟩ := List.lookup_eq_some_iff.mp builtin
  have mem : (name, arity) ∈ before ++ (name, arity) :: after := by simp
  rw [← table] at mem
  simpa using mem

/-- A callee takes as many arguments as are read. -/
theorem takes_of_readCallOf {name : String} {arguments : List (List Char)} {callee : Callee}
    {nodes : List Node}
    (read : readCallOf registry expression name arguments = .ok (callee, nodes)) :
    callee.Takes registry nodes.length := by
  rw [readCallOf] at read
  split at read
  · rename_i arity builtin
    obtain ⟨checked, admitted, called⟩ := bind_eq_ok_iff.mp read
    have admits := admits_of_checkArity admitted
    rcases builtinArity?_cases builtin with
      ⟨rfl, rfl⟩ | ⟨rfl, rfl⟩ | ⟨rfl, rfl⟩ | ⟨rfl, rfl⟩ | ⟨rfl, rfl⟩ <;>
      simp only [Arity.admits, Option.all_some, Option.all_none, Bool.and_true, Bool.and_eq_true,
        decide_eq_true_eq] at admits <;>
      simp only [String.reduceEq, if_true, if_false] at called
    · obtain ⟨nodes, nodesRead, same⟩ := bind_eq_ok_iff.mp called
      cases same
      have count := length_of_readAllOrCurrent nodesRead
      exact (by omega : nodes.length = 1)
    · obtain ⟨pattern, -, called⟩ := bind_eq_ok_iff.mp called
      obtain ⟨nodes, nodesRead, same⟩ := bind_eq_ok_iff.mp called
      cases same
      have count := length_of_readAllOrCurrent nodesRead
      rw [List.length_tail] at count
      exact (by omega : nodes.length = 1)
    all_goals
      obtain ⟨nodes, nodesRead, same⟩ := bind_eq_ok_iff.mp called
      cases same
      have count := length_of_readAll nodesRead
    · exact (by omega : 1 ≤ nodes.length)
    · exact (by omega : 1 ≤ nodes.length)
    · exact (by omega : nodes.length = 2)
  · split at read
    · cases read
    · rename_i registered
      obtain ⟨checked, admitted, read⟩ := bind_eq_ok_iff.mp read
      obtain ⟨nodes, nodesRead, same⟩ := bind_eq_ok_iff.mp read
      cases same
      have admits := admits_of_checkArity admitted
      have count := length_of_readAllOrCurrent nodesRead
      simp only [predicateArity, Arity.admits, Option.all_some, Bool.and_eq_true,
        decide_eq_true_eq] at admits
      exact ⟨registered, by omega⟩

/-- A predicate is called by a name that is not looked up as a function of the language. -/
theorem named_of_readCallOf {name : String} (identifier : isIdentifier name.toList = true)
    {arguments : List (List Char)} {callee : Callee} {nodes : List Node}
    (read : readCallOf registry expression name arguments = .ok (callee, nodes)) :
    callee.Named := by
  rw [readCallOf] at read
  split at read
  · obtain ⟨checked, -, read⟩ := bind_eq_ok_iff.mp read
    split_ifs at read
    · obtain ⟨nodes, -, same⟩ := bind_eq_ok_iff.mp read
      cases same
      trivial
    · obtain ⟨pattern, -, read⟩ := bind_eq_ok_iff.mp read
      obtain ⟨nodes, -, same⟩ := bind_eq_ok_iff.mp read
      cases same
      trivial
    all_goals
      obtain ⟨nodes, -, same⟩ := bind_eq_ok_iff.mp read
      cases same
      trivial
  · rename_i builtin
    split at read
    · cases read
    · obtain ⟨checked, -, read⟩ := bind_eq_ok_iff.mp read
      obtain ⟨nodes, -, same⟩ := bind_eq_ok_iff.mp read
      cases same
      refine ⟨identifier, fun mem => ?_⟩
      simp only [builtinNames, List.mem_cons, List.not_mem_nil, or_false] at mem
      rcases mem with rfl | rfl | rfl | rfl | rfl <;> cases builtin

/-! ## Operands -/

variable (inside : ∀ text tree, expression text = .ok tree → Legible registry tree)

include inside

theorem legible_of_readGroup (read : readGroup expression text = .ok (some (node, after))) :
    Legible registry node := by
  simp only [readGroup] at read
  split at read
  · cases read
  · split_ifs at read
    · cases read
    · obtain ⟨inner, innerRead, same⟩ := bind_eq_ok_iff.mp read
      cases same
      exact .group (inside _ _ innerRead)

theorem legible_of_readCall (read : readCall registry expression text = .ok (some (node, after))) :
    Legible registry node := by
  simp only [readCall] at read
  split at read
  · cases read
  · rename_i name rest nameRead
    split_ifs at read
    · cases read
    · split at read
      · cases read
      · split_ifs at read
        obtain ⟨⟨callee, nodes⟩, argumentsRead, same⟩ := bind_eq_ok_iff.mp read
        cases same
        have identifier : isIdentifier (String.ofList name).toList = true := by
          rw [String.toList_ofList]
          exact (eq_append_of_readIdentifier nameRead).1
        refine .call (takes_of_readCallOf argumentsRead)
          (named_of_readCallOf identifier argumentsRead) fun argument mem => ?_
        rcases yields_of_readCallOf argumentsRead argument mem with rfl | ⟨source, argumentRead⟩
        · exact legible_current
        · exact inside _ _ argumentRead

theorem legible_of_readSelector
    (read : readSelector expression text = .ok (some (node, after))) : Legible registry node := by
  rw [readSelector] at read
  split at read
  · cases read
  · rename_i origin rest originRead
    obtain ⟨taken, subscriptsRead, read⟩ := bind_eq_ok_iff.mp read
    split at read
    · cases read
    · split_ifs at read
      · cases read
        obtain ⟨head, start, -, slotless⟩ := exists_selectorHead originRead
        refine .selector ?_ slotless fun subscript mem => ?_
        · cases start with
          | render wellFormed => exact wellFormed
          | emptyPath noPath => cases origin <;> trivial
        · obtain ⟨source, subscriptRead⟩ := yields_of_readSubscripts subscriptsRead subscript mem
          exact inside _ _ subscriptRead
      · cases read

omit inside in
theorem legible_of_readText (read : readText text = some (node, after)) :
    Legible registry node := by
  obtain ⟨⟨content, rest⟩, scanned, same⟩ := Option.map_eq_some_iff.mp read
  cases same
  refine .text ?_
  rw [String.toList_ofList]
  exact (quoted_of_scanPaired scanned).1

omit inside in
theorem legible_of_readNumber (read : readNumber text = some (node, after)) :
    Legible registry node := by
  rw [readNumber] at read
  split at read
  · rename_i numeral rest literalRead
    split_ifs at read
    cases read
    obtain ⟨literal, -, rfl⟩ := Number.exists_literal literalRead
    exact .number literal
  · cases read

omit inside in
theorem legible_of_readBool (read : readBool text = some (node, after)) :
    Legible registry node := by
  simp only [readBool] at read
  split at read
  · cases read
    exact .bool _
  · split at read
    · cases read
      exact .bool _
    · cases read

omit inside in
theorem legible_of_readNil (read : readNil text = some (node, after)) : Legible registry node := by
  obtain ⟨rest, -, same⟩ := Option.map_eq_some_iff.mp read
  cases same
  exact .nil

theorem legible_of_readOperand (read : readOperand registry expression text = .ok (node, after)) :
    Legible registry node := by
  refine readFirst_sound (fun node _ => Legible registry node) ?_ read
  intro reader mem node after taken
  simp only [operandReaders, List.mem_cons, List.not_mem_nil, or_false] at mem
  rcases mem with rfl | rfl | rfl | rfl | rfl | rfl | rfl
  · exact legible_of_readGroup inside taken
  · exact legible_of_readCall inside taken
  · exact legible_of_readText (Except.ok.inj taken)
  · exact legible_of_readNumber (Except.ok.inj taken)
  · exact legible_of_readBool (Except.ok.inj taken)
  · exact legible_of_readNil (Except.ok.inj taken)
  · exact legible_of_readSelector inside taken

omit inside in
theorem legible_of_readNode {depth : Nat} {tree : Node}
    (read : readNode registry depth text = .ok tree) : Legible registry tree := by
  induction depth generalizing text tree with
  | zero => cases read
  | succ depth ih =>
      obtain ⟨chain, chainRead, same⟩ := bind_eq_ok_iff.mp read
      cases same
      have operands : Legible registry chain.first ∧ ∀ link ∈ chain.rest, Legible registry link.2 :=
        readChain_sound
          (fun _ _ _ taken => legible_of_readOperand (fun _ _ treeRead => ih treeRead) taken)
          chainRead
      apply legible_of_inorder <;> rw [Chain.inorder_tree (readChain_ofOperands chainRead)]
      · exact operands.1
      · exact operands.2

omit inside in
theorem legible_of_ofText {tree : Node} (read : Node.ofText registry text = .ok tree) :
    Legible registry tree :=
  legible_of_readNode read

end Expr

end FieldRules
