import FieldRules.Proofs.Datum.Registry
import FieldRules.Proofs.Expr.Grouping
import FieldRules.Proofs.Expr.ReadableOperands

/-!
# Calls of registered predicates

Whether a name can be registered is decided by one reader of names, and how a
name in front of a parenthesis is read by another.  They agree: a name with `()`
behind it is read as a call of a predicate exactly if the predicate is
registered for it, in every registry that registrations lead to.
-/

namespace FieldRules

open FieldRules.Text

variable [RegexLibrary]

namespace Expr

variable {registry : Registry} {text : List Char} {name : String} {holds : Predicate}

/-! ## Calls that are read -/

/-- A tree that is one operand is read as this operand. -/
theorem operandOver_of_readNode {depth : Nat} {tree : Node} (operand : tree.isOperand = true)
    (read : readNode registry (depth + 1) text = .ok tree) :
    OperandOver registry (readNode registry depth) tree := by
  rcases bind_eq_ok_iff.mp read with ⟨chain, chainRead, same⟩
  cases same
  have first := (readChain_sound (fun _ _ _ taken => readOperand_sound taken) chainRead).1
  rw [← Chain.inorder_tree (readChain_ofOperands chainRead),
    Node.inorder_of_isOperand operand] at first
  exact first

/-- A predicate that a text calls is registered under the name in the call. -/
theorem find?_of_ofText {negate : Bool} {arguments : List Node}
    (read : Node.ofText registry text = .ok (.call negate (.predicate name holds) arguments)) :
    registry.find? name = some holds := by
  have shape := operandOver_of_readNode rfl read
  cases shape with
  | call bound _ => exact bound

/-- Without arguments, a registered predicate is applied to the current value. -/
theorem readCallOf_predicate {expression : ExpressionReader} (free : name ∉ builtinNames)
    (registered : registry.find? name = some holds) :
    readCallOf registry expression name [] = .ok (.predicate name holds, [.current]) := by
  simp only [readCallOf, builtinArity?_eq_none free, registered]
  rfl

/-- A registered name with `()` behind it is taken as a call wherever it stands. -/
theorem laidOut_of_find? (reachable : registry.Reachable)
    (registered : registry.find? name = some holds) :
    LaidOut registry ⟨.call false (.predicate name holds) [.current], []⟩
      (name.toList ++ ['(', ')']) := by
  rcases reachable.free_of_find? registered with ⟨identifier, free, -⟩
  have trimmed : Trimmed (name.toList ++ ['(', ')']) :=
    (trimmed_of_isIdentifier identifier).append (.enclosed (by decide) (by decide) [])
  have starts : StartsOperand (name.toList ++ ['(', ')']) :=
    .of_trimmed trimmed (head_ne_of_isIdentifier identifier (by decide))
  have read (expression : ExpressionReader) :
      readCallOf registry expression (.ofList name.toList) (pieces []) =
        .ok (.predicate name holds, [.current]) := by
    rw [String.ofList_toList]
    exact readCallOf_predicate free registered
  have cut : Encloses '(' ')' [] [] := encloses_parentheses (.nil 0)
  apply LaidOut.of_operand trimmed starts
  intro depth _ after _
  have taken : readOperand registry (readNode registry depth)
      (List.replicate 0 '!' ++ name.toList ++ ('(' :: [] ++ [')']) ++ after) = _ :=
    readOperand_call 0 identifier cut rfl (read _)
  rw [List.replicate_zero, List.nil_append] at taken
  exact taken

/-- A registered name is called by its text with `()` behind it. -/
theorem ofText_of_find? (reachable : registry.Reachable)
    (registered : registry.find? name = some holds) :
    Node.ofText registry (name.toList ++ ['(', ')']) =
      .ok (.call false (.predicate name holds) [.current]) := by
  have fits : ([] ++ (name.toList ++ ['(', ')']) ++ []).length <
      (name.toList ++ ['(', ')']).length + 1 := by simp
  have read := (laidOut_of_find? reachable registered).readNode isGap_nil isGap_nil fits
  rw [List.nil_append, List.append_nil] at read
  exact read

end Expr

/-- A name with `()` behind it is read as a call of a predicate exactly if the
predicate is registered for the name. -/
theorem Expression.ofText_eq_call_iff {registry : Registry} (reachable : registry.Reachable)
    {name : String} {holds : Predicate} :
    Expression.ofText registry (name ++ "()") =
        .ok ⟨name ++ "()", .call false (.predicate name holds) [.current]⟩ ↔
      registry.find? name = some holds := by
  rw [Expression.ofText, String.toList_append]
  constructor
  · intro read
    cases treeRead : Node.ofText registry (name.toList ++ "()".toList) with
    | error error =>
        rw [treeRead] at read
        cases read
    | ok tree =>
        rw [treeRead] at read
        have root := congrArg Expression.root (Except.ok.inj read)
        cases tree with
        | call negate callee arguments =>
            have called : callee = .predicate name holds := (Node.call.inj root).2.1
            subst called
            exact Expr.find?_of_ofText treeRead
        | _ => cases root
  · intro registered
    rw [show "()".toList = ['(', ')'] from rfl, Expr.ofText_of_find? reachable registered]
    rfl

open Registry in
/-- After any sequence of requests, a further request is accepted exactly if its
name is an identifier that the language leaves free, and if the name is not bound
or bound again by force; a refused request changes nothing.  The names that are
bound are those of accepted requests, each bound to the predicate of the last one,
and a name with `()` behind it calls a predicate exactly if it is bound to it. -/
theorem registry_holds_last_accepted (history : List Request) :
    (∀ request : Request,
      (∃ next, (empty.after history).register request.name request.predicate request.force =
          .ok next) ↔
        isIdentifier request.name.toList = true ∧ request.name ∉ builtinNames ∧
          request.name ∉ constantNames ∧
          (request.force = true ∨ request.name ∉ (empty.after history).entries.map Prod.fst)) ∧
    (∀ (request : Request) (error : RegistrationError),
      (empty.after history).register request.name request.predicate request.force =
          .error error →
        empty.after (history ++ [request]) = empty.after history) ∧
    ((empty.after history).entries.map Prod.fst).Nodup ∧
    ∀ name : String,
      (name ∈ (empty.after history).entries.map Prod.fst ↔
        ∃ request ∈ accepted empty history, request.name = name) ∧
      (empty.after history).find? name =
        (last? name (accepted empty history)).map Request.predicate ∧
      ∀ holds, (empty.after history).find? name = some holds ↔
        Expression.ofText (empty.after history) (name ++ "()") =
          .ok ⟨name ++ "()", .call false (.predicate name holds) [.current]⟩ := by
  have reachable : (empty.after history).Reachable := Reachable.empty.after
  constructor
  · intro request
    rw [← find?_eq_none_iff]
    constructor
    · rintro ⟨next, registered⟩
      exact (register_eq_ok_iff.mp registered).1
    · intro accepted
      exact ⟨_, register_eq_ok_iff.mpr ⟨accepted, rfl⟩⟩
  constructor
  · intro request error refused
    rw [after_append_singleton, serve_eq_of_error refused]
  constructor
  · exact reachable.nodup
  · intro name
    constructor
    · exact mem_names_after_iff
    constructor
    · exact (find?_after empty history name).trans Option.or_none
    · intro holds
      exact (Expression.ofText_eq_call_iff reachable).symm

end FieldRules

namespace FieldRules

open FieldRules.Text

attribute [local instance] RegexLibrary.empty

/-- Registered, refused, registered by force: the last predicate is called. -/
theorem forced_predicate_called :
    let history : List Registry.Request :=
      [⟨"ok", fun _ => true, false⟩, ⟨"ok", Datum.truthy, false⟩, ⟨"ok", fun _ => false, true⟩]
    Expression.ofText (Registry.empty.after history) "ok()" =
      .ok ⟨"ok()", .call false (.predicate "ok" fun _ => false) [.current]⟩ := by
  intro history
  have names := (registry_holds_last_accepted history).2.2.2 "ok"
  have bound : (Registry.empty.after history).find? "ok" = some fun _ => false := by rfl
  exact (names.2.2 _).mp bound

end FieldRules
