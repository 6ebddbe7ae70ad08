import FieldRules.Proofs.Expr.ReadableOperands

/-!
# Written expressions are read back

Every written form of a tree is read back as the tree, whatever layout stands in
it and around it.
-/

namespace FieldRules

open FieldRules.Text FieldRules.Expr

variable [RegexLibrary]

/-- Written trees are read back before their slots are given. -/
theorem readable_of_written {registry : Registry} (reachable : registry.Reachable) {tree : Node}
    {text : List Char} (written : Written registry tree text) :
    Readable registry tree.unslotted text := by
  induction written with
  | nil => exact readable_nil
  | bool b => exact readable_bool b
  | number literal => exact readable_number literal
  | text quotable => exact readable_text quotable
  | selector wellFormed subscripts _ ih =>
      rw [Node.unslotted_selector, List.map_map]
      exact readable_selector wellFormed ih
  | group inner _ ih => exact readable_group ih
  | binary left_tight right_tight _ _ gap_before gap_after leftIH rightIH =>
      refine leftIH.binary rightIH ?_ ?_ gap_before gap_after
      · rwa [Node.priority_unslotted]
      · rwa [Node.priority_unslotted]
  | call arguments takes writes _ ih =>
      rw [Node.unslotted_call, List.map_map]
      exact readable_call reachable takes writes ih

/-- Every written form of a tree, with any layout at both ends, is read as the
expression of that tree. -/
theorem expression_read_back {registry : Registry} (reachable : registry.Reachable) {tree : Node}
    {text : List Char} (written : Written registry tree text) {before after : List Char}
    (gap_before : IsGap before) (gap_after : IsGap after) :
    Expression.ofText registry (.ofList (before ++ text ++ after)) =
      .ok (.ofTree (.ofList (before ++ text ++ after)) tree) := by
  have read : Node.ofText registry (before ++ text ++ after) = .ok tree.unslotted :=
    (readable_of_written reachable written).readNode gap_before gap_after (Nat.lt_succ_self _)
  rw [Expression.ofText, String.toList_ofList, read]
  exact congrArg Except.ok (Expression.ofTree_unslotted _ tree)

end FieldRules

namespace FieldRules

open FieldRules.Text FieldRules.Expr

attribute [local instance] RegexLibrary.empty

/-- A negated group, a call with layout between its arguments, a path with a
subscript and a string with an escaped quote are read back together. -/
theorem negated_group_or_call_read_back :
    Expression.ofText .empty " !($>$k)||in( (a.b)$['k'] , 'it\\'s')" =
      .ok (.ofTree " !($>$k)||in( (a.b)$['k'] , 'it\\'s')"
        (.binary .or
          (.group true (.binary .gt .current (.selector .key [])))
          (.call false .oneOf
            [.selector (.field "a.b" 0) [.text "k"], .text "it's"]))) := by
  have blank : IsGap [' '] := by simp [IsGap, isLayout]
  have quoted (s : String) (plain : '\\' ∉ s.toList) :
      Written .empty (.text s) (singleQuoted s.toList) :=
    .text (quotable_of_not_mem plain)
  have selected (origin : Origin) (wellFormed : origin.WellFormed) :
      Written .empty (.selector origin []) (origin.render ++ []) :=
    .selector wellFormed [] (List.forall_mem_nil _)
  let comparison : Placed :=
    ⟨[], .binary .gt .current (.selector .key []), ['$', '>', '$', 'k'], [], isGap_nil, isGap_nil⟩
  have compared : Written .empty comparison.tree comparison.text :=
    .binary (Operator.priority_lt_operandPriority .gt).le (Operator.priority_lt_operandPriority .gt)
      (selected .current trivial) (selected .key trivial) isGap_nil isGap_nil
  let key : Placed := ⟨[], .text "k", singleQuoted "k".toList, [], isGap_nil, isGap_nil⟩
  let field : Origin := .field "a.b" 0
  have wellFormed : field.WellFormed := (by decide : isFieldPath "a.b".toList = true)
  let element : Placed :=
    ⟨[' '], .selector field [.text "k"], field.render ++ bracketed [key.source], [' '], blank,
      blank⟩
  have indexed : Written .empty element.tree element.text :=
    .selector wellFormed [key] (List.forall_mem_singleton.mpr (quoted "k" (by decide)))
  let candidate : Placed :=
    ⟨[' '], .text "it's", singleQuoted "it's".toList, [], blank, isGap_nil⟩
  have called : Written .empty
      (.call false .oneOf [.selector field [.text "k"], .text "it's"])
      ("in".toList ++ ('(' :: argumentsText [] [element, candidate] ++ [')'])) := by
    have takes : Callee.Takes .empty .oneOf [element, candidate].length := Nat.le_succ 1
    refine .call [element, candidate] takes (.none (by simp)) ?_
    exact List.forall_mem_cons.mpr
      ⟨indexed, List.forall_mem_singleton.mpr (quoted "it's" (by decide))⟩
  have grouped : Written .empty (.group true comparison.tree)
      (negation true ++ ('(' :: comparison.source ++ [')'])) :=
    .group comparison compared
  let text : List Char := negation true ++ ('(' :: comparison.source ++ [')']) ++
    ([] ++ Operator.or.symbol ++ []) ++
    ("in".toList ++ ('(' :: argumentsText [] [element, candidate] ++ [')']))
  have joined : Written .empty (.binary .or (.group true comparison.tree)
      (.call false .oneOf [.selector field [.text "k"], .text "it's"])) text :=
    .binary (Operator.priority_lt_operandPriority .or).le
      (Operator.priority_lt_operandPriority .or) grouped called isGap_nil isGap_nil
  have source : " !($>$k)||in( (a.b)$['k'] , 'it\\'s')" = String.ofList ([' '] ++ text ++ []) := rfl
  rw [source]
  exact expression_read_back .empty joined blank isGap_nil

end FieldRules
