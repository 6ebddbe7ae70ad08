import FieldRules.Expr.Parser
import FieldRules.Proofs.Eval.Congruence
import FieldRules.Proofs.Expr.Numbering
import FieldRules.Proofs.Outcome

/-!
# The field paths are all that an expression depends on

Apart from the current value, an expression asks its scope for the fields behind
its field paths only, and it asks for each of them under the slot that counts the
list of these paths.  So its datum is settled by the current value and by the
answers in the order of the list.
-/

namespace FieldRules

variable [RegexLibrary]

variable {registry : Registry} {source : String} {expression : Expression}

/-- An expression that is read is numbered. -/
theorem Expression.eq_ofTree_of_ofText (read : ofText registry source = .ok expression) :
    ∃ tree, Node.ofText registry source.toList = .ok tree ∧ expression = ofTree source tree := by
  rcases map_eq_ok_iff.mp read with ⟨tree, treeRead, same⟩
  exact ⟨tree, treeRead, same.symm⟩

theorem Expression.fieldPaths_ofTree (source : String) (tree : Node) :
    (ofTree source tree).fieldPaths = tree.fieldPaths :=
  tree.fieldPaths_withSlots

/-- The slot of a field selector counts the path of the selector. -/
theorem Expression.getElem?_fieldPaths (tree : Node) {path : String} {slot : Nat}
    (mem : .field path slot ∈ (ofTree source tree).root.origins) :
    (ofTree source tree).fieldPaths[slot]? = some path := by
  rw [fieldPaths_ofTree]
  exact Node.getElem?_fieldPaths_of_mem_origins mem

/-- Scopes with one current value that give the same answers to the field paths agree
on all selectors. -/
theorem Expression.agree_of_fieldPaths (tree : Node) {scope other : Scope}
    (current : scope.current = other.current)
    (answers : ∀ slot path, (ofTree source tree).fieldPaths[slot]? = some path →
      scope.fieldAt slot path = other.fieldAt slot path) :
    scope.Agree other (ofTree source tree).root.origins := by
  intro origin mem element
  cases origin with
  | current => exact current
  | field path slot => exact answers slot path (getElem?_fieldPaths tree mem)
  | key => rfl
  | value => rfl

omit [RegexLibrary] in
/-- A list of answers gives at a slot what is known about the path there. -/
theorem fieldAt_ofSlots {paths : List String} {slot : Nat} {path : String}
    (at_slot : paths[slot]? = some path) (current : Datum) (field : String → Datum) :
    (Scope.ofSlots current (paths.map field)).fieldAt slot path = field path := by
  simp [Scope.ofSlots, at_slot]

/-- An expression that is read has the same datum in all scopes with the same current
value and the same answers to its field paths, each asked for under its slot.  The
slots are those that one walk through the tree gives while it collects the paths,
each new path behind those met before; every field selector has the slot that
counts its path; and the list of paths has each path of the tree once, in the order
in which they first occur.  So a scope may answer by slot from the list of the
answers to the paths as well as by name. -/
theorem eval_determined_by_field_paths
    (read : Expression.ofText registry source = .ok expression) :
    (∀ scope other : Scope, scope.current = other.current →
      (∀ slot path, expression.fieldPaths[slot]? = some path →
        scope.fieldAt slot path = other.fieldAt slot path) →
      expression.eval scope = expression.eval other) ∧
    (∃ tree, Node.ofText registry source.toList = .ok tree ∧
      tree.numbered [] = (expression.root, expression.fieldPaths)) ∧
    (∀ path slot, .field path slot ∈ expression.root.origins →
      expression.fieldPaths[slot]? = some path) ∧
    expression.fieldPaths.Nodup ∧
    (∀ path, path ∈ expression.fieldPaths ↔ path ∈ expression.root.namedPaths) ∧
    expression.fieldPaths.Pairwise (fun first second =>
      expression.root.namedPaths.idxOf first < expression.root.namedPaths.idxOf second) ∧
    ∀ (current : Datum) (field : String → Datum),
      expression.eval (.ofSlots current (expression.fieldPaths.map field)) =
        expression.eval (.ofFields current field) := by
  rcases Expression.eq_ofTree_of_ofText read with ⟨tree, treeRead, rfl⟩
  have determined (scope other : Scope) (current : scope.current = other.current)
      (answers : ∀ slot path, (Expression.ofTree source tree).fieldPaths[slot]? = some path →
        scope.fieldAt slot path = other.fieldAt slot path) :
      (Expression.ofTree source tree).eval scope = (Expression.ofTree source tree).eval other :=
    Node.eval_congr (Expression.agree_of_fieldPaths tree current answers) none
  have listed : (Expression.ofTree source tree).fieldPaths =
      (Expression.ofTree source tree).root.namedPaths.eraseDups :=
    Node.fieldPaths_eq _
  refine ⟨determined, ⟨tree, treeRead, ?_⟩, ?_, ?_, ?_, ?_, ?_⟩
  · rw [Node.numbered_nil, Expression.fieldPaths_ofTree]
    rfl
  · intro path slot mem
    exact Expression.getElem?_fieldPaths tree mem
  · exact Node.nodup_fieldPaths _
  · intro path
    rw [listed, List.mem_eraseDups]
  · rw [listed]
    exact pairwise_eraseDups _
  · intro current field
    apply determined
    · rfl
    · intro slot path at_slot
      exact fieldAt_ofSlots at_slot current field

/-- Three paths, one of them in a subscript and again as an operand. -/
def subscriptedTree : Node :=
  .binary .or
    (.binary .eq (.selector (.field "a.b" 0) [.selector (.field "c" 1) []])
      (.selector (.field "d" 2) []))
    (.selector (.field "c" 1) [])

end FieldRules

namespace FieldRules

attribute [local instance] RegexLibrary.empty

/-- A list of three answers, and a scope that knows the three paths by name but has
other fields too, give the same datum. -/
theorem three_paths_determine_comparison :
    let text := ['(', 'a', '.', 'b', ')', '$', '[', '(', 'c', ')', '$', ']',
      '=', '=', '(', 'd', ')', '$', '|', '|', '(', 'c', ')', '$']
    let expression := Expression.ofTree (.ofList text) subscriptedTree
    let table := Datum.map .bool [(.bool false, .bool true)]
    let scope := Scope.ofSlots .nil [table, .bool false, .bool true]
    let other : Scope := ⟨.nil, fun _ => .record, fun _ path =>
      if path = "a.b" then table else if path = "c" then .bool false
      else if path = "d" then .bool true else .record⟩
    Expression.ofText .empty (.ofList text) = .ok expression ∧
      expression.fieldPaths = ["a.b", "c", "d"] ∧
        expression.eval scope = expression.eval other ∧ expression.eval other = .ok (.bool true) := by
  intro text expression table scope other
  have tree : Node.ofText .empty text = .ok subscriptedTree.unslotted := rfl
  have read : Expression.ofText .empty (.ofList text) = .ok expression := by
    rw [Expression.ofText, String.toList_ofList, tree, Except.map, Expression.ofTree_unslotted]
  have paths : expression.fieldPaths = ["a.b", "c", "d"] := rfl
  have answers (slot : Nat) (path : String) (at_slot : expression.fieldPaths[slot]? = some path) :
      scope.fieldAt slot path = other.fieldAt slot path := by
    rw [paths] at at_slot
    rcases slot with _ | _ | _ | slot <;> cases at_slot <;> rfl
  have determined : expression.eval scope = expression.eval other :=
    (eval_determined_by_field_paths read).1 scope other rfl answers
  exact ⟨read, paths, determined, rfl⟩

end FieldRules
