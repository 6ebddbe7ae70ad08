import FieldRules.Expr.Operand
import FieldRules.Proofs.Outcome

/-!
# What operand readers return

Whatever operand is read, it is a literal, or a group, call or selector whose
parts were read as whole expressions.  An argument that is left out is `$`.
-/

namespace FieldRules.Expr

open FieldRules.Text

variable [RegexLibrary]

/-- An expression reader yields a tree for some text. -/
def Yields (expression : ExpressionReader) (tree : Node) : Prop :=
  ∃ text, expression text = .ok tree

/-- A predicate that is called is the one registered for its name. -/
def Bound (registry : Registry) : Callee → Prop
  | .predicate name holds => registry.find? name = some holds
  | _ => True

/-- Operands whose parts come from a reader of expressions. -/
inductive OperandOver (registry : Registry) (expression : ExpressionReader) : Node → Prop
  | nil : OperandOver registry expression .nil
  | bool (b : Bool) : OperandOver registry expression (.bool b)
  | number (x : Float) : OperandOver registry expression (.number x)
  | text (s : String) : OperandOver registry expression (.text s)
  | selector {origin : Origin} {subscripts : List Node}
      (read : ∀ subscript ∈ subscripts, Yields expression subscript) :
      OperandOver registry expression (.selector origin subscripts)
  | group {negate : Bool} {inner : Node} (read : Yields expression inner) :
      OperandOver registry expression (.group negate inner)
  | call {negate : Bool} {callee : Callee} {arguments : List Node}
      (bound : Bound registry callee)
      (read : ∀ argument ∈ arguments, argument = .current ∨ Yields expression argument) :
      OperandOver registry expression (.call negate callee arguments)

variable {registry : Registry} {expression : ExpressionReader} {text after : List Char}
  {node : Node}

/-! ## Groups and calls -/

theorem readGroup_sound (read : readGroup expression text = .ok (some (node, after))) :
    OperandOver registry expression node := by
  simp only [readGroup] at read
  split at read
  · cases read
  · split_ifs at read
    · cases read
    · obtain ⟨inner, innerRead, same⟩ := bind_eq_ok_iff.mp read
      cases same
      exact .group ⟨_, innerRead⟩

theorem readAll_eq_ok_iff {arguments : List (List Char)} {nodes : List Node} :
    readAll expression arguments = .ok nodes ↔
      List.Forall₂ (fun argument node => expression argument = .ok node) arguments nodes := by
  induction arguments generalizing nodes with
  | nil => cases nodes <;> simp [readAll]
  | cons argument arguments ih =>
      rw [readAll, bind_eq_ok_iff]
      constructor
      · rintro ⟨node, first, rest⟩
        obtain ⟨nodes, inOrder, same⟩ := bind_eq_ok_iff.mp rest
        cases same
        exact .cons first (ih.mp inOrder)
      · rintro (_ | ⟨first, inOrder⟩)
        exact ⟨_, first, bind_eq_ok_iff.mpr ⟨_, ih.mpr inOrder, rfl⟩⟩

theorem yields_of_readAll {arguments : List (List Char)} {nodes : List Node}
    (read : readAll expression arguments = .ok nodes) :
    ∀ node ∈ nodes, Yields expression node := by
  induction readAll_eq_ok_iff.mp read with
  | nil => simp
  | cons first rest ih =>
      intro node mem
      rcases List.mem_cons.mp mem with rfl | inRest
      · exact ⟨_, first⟩
      · exact ih (readAll_eq_ok_iff.mpr rest) node inRest

theorem yields_of_readAllOrCurrent {arguments : List (List Char)} {nodes : List Node}
    (read : readAllOrCurrent expression arguments = .ok nodes) :
    ∀ node ∈ nodes, node = .current ∨ Yields expression node := by
  intro node mem
  rw [readAllOrCurrent] at read
  split_ifs at read
  · cases read
    exact .inl (List.mem_singleton.mp mem)
  · exact .inr (yields_of_readAll read node mem)

omit [RegexLibrary] in
theorem ne_nil_of_checkArity {name : String} {arity : Arity} {arguments : List (List Char)}
    (admits : checkArity name arity arguments = .ok ()) (some : 1 ≤ arity.least) :
    arguments ≠ [] := by
  rintro rfl
  rw [checkArity, Arity.admits, List.length_nil, decide_eq_false (by omega)] at admits
  cases admits

omit [RegexLibrary] in
/-- Every function of the language but `len` needs an argument. -/
theorem least_pos_of_builtinArity? {name : String} {arity : Arity}
    (builtin : builtinArity? name = some arity) (noLen : name ≠ "len") : 1 ≤ arity.least := by
  obtain ⟨before, after, table, -⟩ := List.lookup_eq_some_iff.mp builtin
  have mem : (name, arity) ∈ before ++ (name, arity) :: after := by simp
  rw [← table] at mem
  simp only [List.mem_cons, List.not_mem_nil, or_false, Prod.mk.injEq] at mem
  rcases mem with ⟨rfl, -⟩ | ⟨-, rfl⟩ | ⟨-, rfl⟩ | ⟨-, rfl⟩ | ⟨-, rfl⟩
  · exact absurd rfl noLen
  all_goals decide

/-- A call reads all its arguments; `regexp` reads a literal in place of the
first one. -/
theorem reads_of_readCallOf {name : String} {arguments : List (List Char)} {callee : Callee}
    {nodes : List Node} (read : readCallOf registry expression name arguments = .ok (callee, nodes)) :
    readAllOrCurrent expression arguments = .ok nodes ∨
      ∃ pattern literal rest, arguments = literal :: rest ∧ readPattern literal = .ok pattern ∧
        readAllOrCurrent expression rest = .ok nodes := by
  rw [readCallOf] at read
  split at read
  · rename_i arity builtin
    obtain ⟨⟨⟩, admits, read⟩ := bind_eq_ok_iff.mp read
    split_ifs at read with isLen isRegexp
    · obtain ⟨nodes, nodesRead, same⟩ := bind_eq_ok_iff.mp read
      cases same
      exact .inl nodesRead
    · obtain ⟨pattern, patternRead, read⟩ := bind_eq_ok_iff.mp read
      obtain ⟨nodes, nodesRead, same⟩ := bind_eq_ok_iff.mp read
      cases same
      subst isRegexp
      cases builtin
      cases arguments with
      | nil => exact absurd rfl (ne_nil_of_checkArity admits (by decide))
      | cons literal rest => exact .inr ⟨pattern, literal, rest, rfl, patternRead, nodesRead⟩
    all_goals
      obtain ⟨nodes, nodesRead, same⟩ := bind_eq_ok_iff.mp read
      cases same
      have some := ne_nil_of_checkArity admits (least_pos_of_builtinArity? builtin isLen)
      left
      rwa [readAllOrCurrent, if_neg (by simpa using some)]
  · split at read
    · cases read
    · obtain ⟨-, -, read⟩ := bind_eq_ok_iff.mp read
      obtain ⟨nodes, nodesRead, same⟩ := bind_eq_ok_iff.mp read
      cases same
      exact .inl nodesRead

theorem yields_of_readCallOf {name : String} {arguments : List (List Char)} {callee : Callee}
    {nodes : List Node} (read : readCallOf registry expression name arguments = .ok (callee, nodes)) :
    ∀ node ∈ nodes, node = .current ∨ Yields expression node := by
  rcases reads_of_readCallOf read with nodesRead | ⟨-, -, rest, -, -, nodesRead⟩
  · exact yields_of_readAllOrCurrent nodesRead
  · exact yields_of_readAllOrCurrent nodesRead

/-- A call binds its callee. -/
theorem bound_of_readCallOf {name : String} {arguments : List (List Char)} {callee : Callee}
    {nodes : List Node} (read : readCallOf registry expression name arguments = .ok (callee, nodes)) :
    Bound registry callee := by
  rw [readCallOf] at read
  split at read
  · rcases bind_eq_ok_iff.mp read with ⟨checked, -, read⟩
    split_ifs at read with isLen isRegexp isSprintf isIn
    · rcases bind_eq_ok_iff.mp read with ⟨nodes, -, same⟩
      cases same
      trivial
    · rcases bind_eq_ok_iff.mp read with ⟨pattern, -, read⟩
      rcases bind_eq_ok_iff.mp read with ⟨nodes, -, same⟩
      cases same
      trivial
    all_goals
      rcases bind_eq_ok_iff.mp read with ⟨nodes, -, same⟩
      cases same
      trivial
  · split at read
    · cases read
    · rename_i registered
      rcases bind_eq_ok_iff.mp read with ⟨checked, -, read⟩
      rcases bind_eq_ok_iff.mp read with ⟨nodes, -, same⟩
      cases same
      exact registered

theorem readCall_sound (read : readCall registry expression text = .ok (some (node, after))) :
    OperandOver registry expression node := by
  simp only [readCall] at read
  split at read
  · cases read
  · split_ifs at read
    · cases read
    · split at read
      · cases read
      · split_ifs at read
        obtain ⟨⟨callee, nodes⟩, argumentsRead, same⟩ := bind_eq_ok_iff.mp read
        cases same
        exact .call (bound_of_readCallOf argumentsRead) (yields_of_readCallOf argumentsRead)

/-! ## Reading arguments again -/

/-- Another reader reads another text as the same tree, and both are the same
literal or none. -/
structure ReadsAgain (expression other : ExpressionReader) (text again : List Char) : Prop where
  read : ∀ tree, expression text = .ok tree → other again = .ok tree
  literal : quotedLiteral? again = quotedLiteral? text

variable {other : ExpressionReader} {texts again : List (List Char)} {nodes : List Node}

theorem readAll_again (aligned : List.Forall₂ (ReadsAgain expression other) texts again)
    (read : readAll expression texts = .ok nodes) : readAll other again = .ok nodes := by
  rw [readAll_eq_ok_iff] at read ⊢
  induction aligned generalizing nodes with
  | nil =>
      cases read
      exact .nil
  | cons first _ ih =>
      cases read with
      | cons firstRead restRead => exact .cons (first.read _ firstRead) (ih restRead)

theorem readAllOrCurrent_again (aligned : List.Forall₂ (ReadsAgain expression other) texts again)
    (read : readAllOrCurrent expression texts = .ok nodes) :
    readAllOrCurrent other again = .ok nodes := by
  cases aligned with
  | nil => exact read
  | cons first rest => exact readAll_again (.cons first rest) read

/-- A call is read again from arguments that are. -/
theorem readCallOf_again {name : String} {callee : Callee}
    (aligned : List.Forall₂ (ReadsAgain expression other) texts again)
    (read : readCallOf registry expression name texts = .ok (callee, nodes)) :
    readCallOf registry other name again = .ok (callee, nodes) := by
  have arity (arity : Arity) : checkArity name arity again = checkArity name arity texts := by
    rw [checkArity, checkArity, aligned.length_eq]
  have pattern : readPattern (again.headD []) = readPattern (texts.headD []) := by
    cases aligned with
    | nil => rfl
    | cons first rest => simp only [readPattern, List.headD_cons, first.literal]
  have tail : List.Forall₂ (ReadsAgain expression other) texts.tail again.tail := by
    cases aligned with
    | nil => exact .nil
    | cons first rest => exact rest
  rw [readCallOf] at read ⊢
  cases builtin : builtinArity? name with
  | some admitted =>
      simp only [builtin] at read ⊢
      rw [arity]
      obtain ⟨checked, admits, read⟩ := bind_eq_ok_iff.mp read
      rw [admits, bind_ok]
      split_ifs at read ⊢ with isLen isRegexp
      · obtain ⟨found, foundRead, same⟩ := bind_eq_ok_iff.mp read
        rw [readAllOrCurrent_again aligned foundRead]
        exact same
      · obtain ⟨found, foundRead, read⟩ := bind_eq_ok_iff.mp read
        obtain ⟨others, othersRead, same⟩ := bind_eq_ok_iff.mp read
        rw [pattern, foundRead, bind_ok, readAllOrCurrent_again tail othersRead]
        exact same
      all_goals
        obtain ⟨found, foundRead, same⟩ := bind_eq_ok_iff.mp read
        rw [readAll_again aligned foundRead]
        exact same
  | none =>
      simp only [builtin] at read ⊢
      cases registered : registry.find? name with
      | none => simp [registered] at read
      | some predicate =>
          simp only [registered] at read ⊢
          rw [arity]
          obtain ⟨checked, admits, read⟩ := bind_eq_ok_iff.mp read
          obtain ⟨found, foundRead, same⟩ := bind_eq_ok_iff.mp read
          rw [admits, bind_ok, readAllOrCurrent_again aligned foundRead]
          exact same

/-- Every argument of a call that is read is read itself, or it is a literal. -/
theorem read_or_literal_of_readCallOf {name : String} {callee : Callee}
    (read : readCallOf registry expression name texts = .ok (callee, nodes)) :
    ∀ text ∈ texts, (∃ tree, expression text = .ok tree) ∨ ∃ s, quotedLiteral? text = some s := by
  have each {texts : List (List Char)} (read : readAllOrCurrent expression texts = .ok nodes) :
      ∀ text ∈ texts, ∃ tree, expression text = .ok tree := by
    intro text mem
    rw [readAllOrCurrent, if_neg (by simpa using List.ne_nil_of_mem mem), readAll_eq_ok_iff] at read
    obtain ⟨tree, -, treeRead⟩ := exists_mem_of_forall₂ read mem
    exact ⟨tree, treeRead⟩
  intro text mem
  rcases reads_of_readCallOf read with
    allRead | ⟨pattern, literal, rest, rfl, patternRead, restRead⟩
  · exact .inl (each allRead text mem)
  · rcases List.mem_cons.mp mem with rfl | inRest
    · rw [readPattern] at patternRead
      cases spelled : quotedLiteral? text with
      | none => simp [spelled] at patternRead
      | some s => exact .inr ⟨s, rfl⟩
    · exact .inl (each restRead text inRest)

/-! ## Literals -/

theorem readText_sound (read : readText text = some (node, after)) :
    OperandOver registry expression node := by
  obtain ⟨_, _, same⟩ := Option.map_eq_some_iff.mp read
  cases same
  exact .text _

theorem readNumber_sound (read : readNumber text = some (node, after)) :
    OperandOver registry expression node := by
  rw [readNumber] at read
  split at read
  · split_ifs at read
    cases read
    exact .number _
  · cases read

theorem readBool_sound (read : readBool text = some (node, after)) :
    OperandOver registry expression node := by
  simp only [readBool] at read
  split at read
  · cases read
    exact .bool _
  · split at read
    · cases read
      exact .bool _
    · cases read

theorem readNil_sound (read : readNil text = some (node, after)) :
    OperandOver registry expression node := by
  obtain ⟨_, _, same⟩ := Option.map_eq_some_iff.mp read
  cases same
  exact .nil

/-! ## Selectors -/

theorem yields_of_readSubscripts {steps : Nat} {subscripts : List Node}
    (read : readSubscripts expression steps text = .ok (some (subscripts, after))) :
    ∀ subscript ∈ subscripts, Yields expression subscript := by
  induction steps generalizing text subscripts with
  | zero =>
      cases read
      simp
  | succ steps ih =>
      rw [readSubscripts] at read
      split_ifs at read
      · cases read
        simp
      · split at read
        · cases read
        · split_ifs at read
          · cases read
          · obtain ⟨first, firstRead, read⟩ := bind_eq_ok_iff.mp read
            obtain ⟨taken, restRead, read⟩ := bind_eq_ok_iff.mp read
            split at read
            · cases read
            · cases read
              intro subscript mem
              rcases List.mem_cons.mp mem with rfl | inRest
              · exact ⟨_, firstRead⟩
              · exact ih restRead subscript inRest

theorem readSelector_sound (read : readSelector expression text = .ok (some (node, after))) :
    OperandOver registry expression node := by
  rw [readSelector] at read
  split at read
  · cases read
  · obtain ⟨taken, subscriptsRead, read⟩ := bind_eq_ok_iff.mp read
    split at read
    · cases read
    · split_ifs at read
      · cases read
        exact .selector (yields_of_readSubscripts subscriptsRead)
      · cases read

/-! ## Operands -/

/-- Whatever holds of what every reader returns holds of what the first one that
applies returns. -/
theorem readFirst_sound (property : Node → List Char → Prop)
    {readers : List (List Char → Reading (Taken Node))}
    (sound : ∀ reader ∈ readers, ∀ node after,
      reader text = .ok (some (node, after)) → property node after)
    (read : readFirst text readers = .ok (node, after)) : property node after := by
  induction readers with
  | nil => cases read
  | cons reader readers ih =>
      rw [readFirst] at read
      obtain ⟨taken, first, read⟩ := bind_eq_ok_iff.mp read
      cases taken with
      | some operand =>
          cases read
          exact sound reader List.mem_cons_self _ _ first
      | none => exact ih (fun reader mem => sound reader (List.mem_cons_of_mem _ mem)) read

theorem readOperand_sound (read : readOperand registry expression text = .ok (node, after)) :
    OperandOver registry expression node := by
  refine readFirst_sound (fun node _ => OperandOver registry expression node) ?_ read
  intro reader mem node after taken
  simp only [operandReaders, List.mem_cons, List.not_mem_nil, or_false] at mem
  rcases mem with rfl | rfl | rfl | rfl | rfl | rfl | rfl
  · exact readGroup_sound taken
  · exact readCall_sound taken
  · exact readText_sound (Except.ok.inj taken)
  · exact readNumber_sound (Except.ok.inj taken)
  · exact readBool_sound (Except.ok.inj taken)
  · exact readNil_sound (Except.ok.inj taken)
  · exact readSelector_sound taken

end FieldRules.Expr
