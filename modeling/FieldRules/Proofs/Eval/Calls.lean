import FieldRules.Eval.Basic
import FieldRules.Proofs.Eval.Formatting
import FieldRules.Proofs.Expr.ReadBack

/-!
# When evaluation has a result

Evaluating a tree evaluates other trees on the way: subscripts up to the first that
leads to nil, operands, arguments, and the body of a `range` for one element after the
other.  Nothing goes wrong in between.  So an expression has a datum exactly if all the
formats that are shown on the way have a text.
-/

namespace FieldRules

open FieldRules.Text FieldRules.Expr
open Format (Fault TooPrecise segments)

variable [RegexLibrary]

namespace Node

/-! ## Trees that are evaluated on the way -/

/-- A subscript is evaluated, because those before it lead from the target to data other
than nil. -/
inductive SubscriptReached (scope : Scope) (element : Element) : Datum → List Node → Node → Prop
  | first {target : Datum} {subscript : Node} {subscripts : List Node} :
      SubscriptReached scope element target (subscript :: subscripts) subscript
  | later {target key : Datum} {subscript other : Node} {subscripts : List Node}
      (evaluated : subscript.eval scope element = .ok key)
      (found : (target.index key).isNil = false)
      (reached : SubscriptReached scope element (target.index key) subscripts other) :
      SubscriptReached scope element target (subscript :: subscripts) other

/-- One of several trees is evaluated, because those before it have data. -/
inductive OperandReached (scope : Scope) (element : Element) : List Node → Node → Prop
  | first {node : Node} {nodes : List Node} : OperandReached scope element (node :: nodes) node
  | later {node other : Node} {nodes : List Node} {datum : Datum}
      (evaluated : node.eval scope element = .ok datum)
      (reached : OperandReached scope element nodes other) :
      OperandReached scope element (node :: nodes) other

/-- Evaluating a tree evaluates another one, with an element that may be a new one. -/
inductive Needs (scope : Scope) (element : Element) : Node → Element → Node → Prop
  | subscript {origin : Origin} {subscripts : List Node} {child : Node}
      (reached : SubscriptReached scope element (origin.start scope element) subscripts child) :
      Needs scope element (.selector origin subscripts) element child
  | inner {negate : Bool} {child : Node} : Needs scope element (.group negate child) element child
  | operand {operator : Operator} {left right child : Node}
      (reached : OperandReached scope element [left, right] child) :
      Needs scope element (.binary operator left right) element child
  | argument {negate : Bool} {callee : Callee} {child : Node} {rest : List Node} :
      Needs scope element (.call negate callee (child :: rest)) element child
  | formatted {negate : Bool} {first child : Node} {rest : List Node} {format : String}
      (evaluated : first.eval scope element = .ok (.text format))
      (reached : OperandReached scope element rest child) :
      Needs scope element (.call negate .sprintf (first :: rest)) element child
  | candidate {negate : Bool} {first child : Node} {rest : List Node} {subject : Datum}
      (evaluated : first.eval scope element = .ok subject)
      (reached : OperandReached scope element rest child) :
      Needs scope element (.call negate .oneOf (first :: rest)) element child
  | body {negate : Bool} {first child : Node} {rest : List Node} {subject : Datum}
      {before after : List (Datum × Datum)} {visited : Datum × Datum}
      (evaluated : first.eval scope element = .ok subject)
      (elements : subject.elements? = some (before ++ visited :: after))
      (earlier : ∀ other ∈ before, ∃ datum, child.eval scope (some other) = .ok datum) :
      Needs scope element (.call negate .range (first :: child :: rest)) (some visited) child

/-- Evaluating a tree shows a format with arguments. -/
inductive Shows (scope : Scope) : Element → Node → String → List Datum → Prop
  | here {element : Element} {negate : Bool} {first : Node} {rest : List Node} {format : String}
      {arguments : List Datum} (formatted : first.eval scope element = .ok (.text format))
      (evaluated : evalAll scope element rest = .ok arguments) :
      Shows scope element (.call negate .sprintf (first :: rest)) format arguments
  | within {element inside : Element} {node child : Node} {format : String}
      {arguments : List Datum} (needs : Needs scope element node inside child)
      (shows : Shows scope inside child format arguments) :
      Shows scope element node format arguments

variable {scope : Scope} {element inside : Element} {node child : Node} {nodes : List Node}
  {target datum : Datum} {fault : Fault}

/-! ## Success -/

theorem SubscriptReached.exists_eval (reached : SubscriptReached scope element target nodes child)
    (success : evalSubscripts scope element target nodes = .ok datum) :
    ∃ value, child.eval scope element = .ok value := by
  induction reached with
  | first =>
      rw [evalSubscripts] at success
      rcases bind_eq_ok_iff.mp success with ⟨key, evaluated, -⟩
      exact ⟨key, evaluated⟩
  | later evaluated found _ ih =>
      rw [evalSubscripts, evaluated] at success
      simp only [bind_ok, found, Bool.false_eq_true, if_false] at success
      exact ih success

theorem OperandReached.exists_eval {data : List Datum}
    (reached : OperandReached scope element nodes child)
    (success : evalAll scope element nodes = .ok data) :
    ∃ value, child.eval scope element = .ok value := by
  induction reached generalizing data with
  | first =>
      rw [evalAll] at success
      rcases bind_eq_ok_iff.mp success with ⟨value, evaluated, -⟩
      exact ⟨value, evaluated⟩
  | later _ _ ih =>
      rw [evalAll] at success
      rcases bind_eq_ok_iff.mp success with ⟨value, -, success⟩
      rcases bind_eq_ok_iff.mp success with ⟨values, success, -⟩
      exact ih success

/-- Calls evaluate their first argument in any case. -/
theorem exists_eval_of_evalCall {callee : Callee} {first : Node}
    (success : evalCall scope element callee (first :: nodes) = .ok datum) :
    ∃ value, first.eval scope element = .ok value := by
  cases callee <;> rw [evalCall] at success <;>
    rcases bind_eq_ok_iff.mp success with ⟨value, evaluated, -⟩ <;>
    exact ⟨value, evaluated⟩

/-- What a tree with a datum needs has a datum. -/
theorem Needs.exists_eval (needs : Needs scope element node inside child)
    (success : node.eval scope element = .ok datum) :
    ∃ value, child.eval scope inside = .ok value := by
  cases needs with
  | subscript reached =>
      rw [eval] at success
      exact reached.exists_eval success
  | inner =>
      rw [eval] at success
      rcases bind_eq_ok_iff.mp success with ⟨value, evaluated, -⟩
      exact ⟨value, evaluated⟩
  | @operand _ left right _ reached =>
      rw [eval] at success
      rcases bind_eq_ok_iff.mp success with ⟨first, leftEvaluated, success⟩
      rcases bind_eq_ok_iff.mp success with ⟨second, rightEvaluated, -⟩
      have both : evalAll scope element [left, right] = .ok [first, second] := by
        simp [evalAll, leftEvaluated, rightEvaluated]
      exact reached.exists_eval both
  | argument =>
      rw [eval] at success
      rcases bind_eq_ok_iff.mp success with ⟨called, success, -⟩
      exact exists_eval_of_evalCall success
  | formatted evaluated reached =>
      rw [eval, evalCall, evaluated] at success
      rcases bind_eq_ok_iff.mp success with ⟨called, success, -⟩
      simp only [bind_ok] at success
      rcases bind_eq_ok_iff.mp success with ⟨data, success, -⟩
      exact reached.exists_eval success
  | candidate evaluated reached =>
      rw [eval, evalCall, evaluated] at success
      rcases bind_eq_ok_iff.mp success with ⟨called, success, -⟩
      simp only [bind_ok] at success
      rcases bind_eq_ok_iff.mp success with ⟨data, success, -⟩
      exact reached.exists_eval success
  | @body _ _ _ _ _ before after visited evaluated elements =>
      have inElements : visited ∈ before ++ visited :: after :=
        List.mem_append_right _ List.mem_cons_self
      rw [eval, evalCall, evaluated] at success
      rcases bind_eq_ok_iff.mp success with ⟨called, success, -⟩
      simp only [bind_ok, elements] at success
      rcases bind_eq_ok_iff.mp success with ⟨results, success, -⟩
      rcases exists_mem_of_forall₂ (mapM_eq_ok_iff.mp success) inElements with
        ⟨value, -, evaluated⟩
      exact ⟨value, evaluated⟩

/-! ## Failure -/

theorem exists_reached_of_evalSubscripts_eq_error
    (failed : evalSubscripts scope element target nodes = .error fault) :
    ∃ child ∈ nodes, SubscriptReached scope element target nodes child ∧
      child.eval scope element = .error fault := by
  induction nodes generalizing target with
  | nil => cases failed
  | cons subscript subscripts ih =>
      rw [evalSubscripts] at failed
      rcases bind_eq_error_iff.mp failed with here | ⟨key, evaluated, behind⟩
      · exact ⟨subscript, List.mem_cons_self, .first, here⟩
      · dsimp only at behind
        split_ifs at behind with none
        have found : (target.index key).isNil = false := by simpa using none
        rcases ih behind with ⟨child, mem, reached, fails⟩
        exact ⟨child, List.mem_cons_of_mem _ mem, .later evaluated found reached, fails⟩

theorem exists_reached_of_evalAll_eq_error
    (failed : evalAll scope element nodes = .error fault) :
    ∃ child ∈ nodes, OperandReached scope element nodes child ∧
      child.eval scope element = .error fault := by
  induction nodes with
  | nil => cases failed
  | cons node nodes ih =>
      rw [evalAll] at failed
      rcases bind_eq_error_iff.mp failed with here | ⟨value, evaluated, behind⟩
      · exact ⟨node, List.mem_cons_self, .first, here⟩
      · rcases bind_eq_error_iff.mp behind with behind | ⟨values, -, done⟩
        · rcases ih behind with ⟨child, mem, reached, fails⟩
          exact ⟨child, List.mem_cons_of_mem _ mem, .later evaluated reached, fails⟩
        · cases done

section

variable {first : Node} {rest : List Node} {subject : Datum} {negate : Bool}

theorem exists_needs_of_oneOf_eq_error (evaluated : first.eval scope element = .ok subject)
    (failed : evalCall scope element .oneOf (first :: rest) = .error fault) :
    ∃ child ∈ rest, Needs scope element (.call negate .oneOf (first :: rest)) element child ∧
      child.eval scope element = .error fault := by
  rw [evalCall, evaluated] at failed
  simp only [bind_ok] at failed
  rcases bind_eq_error_iff.mp failed with candidate | ⟨data, -, done⟩
  · rcases exists_reached_of_evalAll_eq_error candidate with ⟨child, mem, reached, fails⟩
    exact ⟨child, mem, .candidate evaluated reached, fails⟩
  · cases done

/-- Showing a format fails at one of the arguments, or because the format has no text. -/
theorem exists_needs_or_shows_of_sprintf_eq_error
    (evaluated : first.eval scope element = .ok subject)
    (failed : evalCall scope element .sprintf (first :: rest) = .error fault) :
    (∃ child ∈ rest, Needs scope element (.call negate .sprintf (first :: rest)) element child ∧
      child.eval scope element = .error fault) ∨
    ∃ format data, Shows scope element (.call negate .sprintf (first :: rest)) format data ∧
      sprintf format data = .error fault := by
  rw [evalCall, evaluated] at failed
  simp only [bind_ok] at failed
  split at failed
  · rename_i format
    rcases bind_eq_error_iff.mp failed with argument | ⟨data, shown, failed⟩
    · rcases exists_reached_of_evalAll_eq_error argument with ⟨child, mem, reached, fails⟩
      exact .inl ⟨child, mem, .formatted evaluated reached, fails⟩
    · rcases bind_eq_error_iff.mp failed with unprintable | ⟨text, -, done⟩
      · exact .inr ⟨format, data, .here evaluated shown, unprintable⟩
      · cases done
  · cases failed

/-- A `range` fails at the first element for which its body does. -/
theorem exists_needs_of_range_eq_error {body : Node}
    (evaluated : first.eval scope element = .ok subject)
    (failed : evalCall scope element .range (first :: body :: rest) = .error fault) :
    ∃ visited, Needs scope element (.call negate .range (first :: body :: rest)) (some visited)
        body ∧
      body.eval scope (some visited) = .error fault := by
  rw [evalCall, evaluated] at failed
  simp only [bind_ok] at failed
  split at failed
  · cases failed
  · rename_i elements listed
    rcases bind_eq_error_iff.mp failed with visits | ⟨data, -, done⟩
    · rcases exists_of_mapM_eq_error visits with ⟨before, visited, after, rfl, earlier, fails⟩
      exact ⟨visited, .body evaluated listed earlier, fails⟩
    · cases done

end

/-- A call fails because one of its arguments does, or because a format has no text. -/
theorem exists_needs_of_evalCall_eq_error {callee : Callee} (negate : Bool)
    (failed : evalCall scope element callee nodes = .error fault) :
    (∃ child ∈ nodes, ∃ inside, Needs scope element (.call negate callee nodes) inside child ∧
      child.eval scope inside = .error fault) ∨
    ∃ format data, Shows scope element (.call negate callee nodes) format data ∧
      sprintf format data = .error fault := by
  cases nodes with
  | nil => cases failed
  | cons first rest =>
      cases evaluated : first.eval scope element with
      | error other =>
          -- There is one fault only.
          cases other
          cases fault
          exact .inl ⟨first, List.mem_cons_self, element, .argument, evaluated⟩
      | ok subject =>
          cases callee with
          | sprintf =>
              rcases exists_needs_or_shows_of_sprintf_eq_error evaluated failed with
                ⟨child, mem, needs, fails⟩ | unprintable
              · exact .inl ⟨child, List.mem_cons_of_mem _ mem, element, needs, fails⟩
              · exact .inr unprintable
          | oneOf =>
              rcases exists_needs_of_oneOf_eq_error evaluated failed with
                ⟨child, mem, needs, fails⟩
              exact .inl ⟨child, List.mem_cons_of_mem _ mem, element, needs, fails⟩
          | range =>
              cases rest with
              | nil =>
                  rw [evalCall, evaluated] at failed
                  cases failed
              | cons body rest =>
                  rcases exists_needs_of_range_eq_error evaluated failed with
                    ⟨visited, needs, fails⟩
                  exact .inl ⟨body, List.mem_cons_of_mem _ List.mem_cons_self, some visited,
                    needs, fails⟩
          | _ =>
              rw [evalCall, evaluated] at failed
              cases failed

/-- A tree without a datum shows a format that has no text. -/
theorem exists_shows_of_eval_eq_error (failed : node.eval scope element = .error fault) :
    ∃ format arguments, Shows scope element node format arguments ∧
      sprintf format arguments = .error fault := by
  -- A tree fails at a smaller one that it needs, possibly with another element.
  induction node using treeInduction generalizing element with
  | selector origin subscripts ih =>
      rw [eval] at failed
      rcases exists_reached_of_evalSubscripts_eq_error failed with ⟨child, mem, reached, fails⟩
      rcases ih child mem fails with ⟨format, arguments, shows, unprintable⟩
      exact ⟨format, arguments, .within (.subscript reached) shows, unprintable⟩
  | group negate inner ih =>
      rw [eval] at failed
      rcases bind_eq_error_iff.mp failed with inside | ⟨value, -, done⟩
      · rcases ih inside with ⟨format, arguments, shows, unprintable⟩
        exact ⟨format, arguments, .within .inner shows, unprintable⟩
      · cases done
  | binary operator left right leftIH rightIH =>
      rw [eval] at failed
      rcases bind_eq_error_iff.mp failed with inLeft | ⟨first, evaluated, failed⟩
      · rcases leftIH inLeft with ⟨format, arguments, shows, unprintable⟩
        exact ⟨format, arguments, .within (.operand .first) shows, unprintable⟩
      · rcases bind_eq_error_iff.mp failed with inRight | ⟨second, -, done⟩
        · rcases rightIH inRight with ⟨format, arguments, shows, unprintable⟩
          exact ⟨format, arguments, .within (.operand (.later evaluated .first)) shows,
            unprintable⟩
        · cases done
  | call negate callee arguments ih =>
      rw [eval] at failed
      rcases bind_eq_error_iff.mp failed with called | ⟨value, -, done⟩
      · rcases exists_needs_of_evalCall_eq_error negate called with
          ⟨child, mem, inside, needs, fails⟩ | unprintable
        · rcases ih child mem fails with ⟨format, data, shows, unprintable⟩
          exact ⟨format, data, .within needs shows, unprintable⟩
        · exact unprintable
      · cases done
  | _ =>
      rw [eval] at failed
      cases failed

/-- All formats that a tree with a datum shows have a text. -/
theorem Shows.exists_text {format : String} {arguments : List Datum}
    (shows : Shows scope element node format arguments)
    (success : node.eval scope element = .ok datum) :
    ∃ text, sprintf format arguments = .ok text := by
  induction shows generalizing datum with
  | here formatted evaluated =>
      rw [eval, evalCall, formatted] at success
      rcases bind_eq_ok_iff.mp success with ⟨called, success, -⟩
      simp only [bind_ok, evaluated] at success
      rcases bind_eq_ok_iff.mp success with ⟨text, shown, -⟩
      exact ⟨text, shown⟩
  | within needs _ ih =>
      rcases needs.exists_eval success with ⟨value, evaluated⟩
      exact ih evaluated

/-- A tree has a datum exactly if none of the formats that it shows overflows. -/
theorem exists_eval_iff :
    (∃ datum, node.eval scope element = .ok datum) ↔
      ∀ format arguments, Shows scope element node format arguments →
        ¬ TooPrecise (segments format.toList) arguments := by
  constructor
  · rintro ⟨datum, success⟩ format arguments shows
    exact exists_sprintf_iff.mp (shows.exists_text success)
  · intro printable
    cases evaluated : node.eval scope element with
    | ok datum => exact ⟨datum, rfl⟩
    | error fault =>
        rcases exists_shows_of_eval_eq_error evaluated with
          ⟨format, arguments, shows, unprintable⟩
        rcases exists_sprintf_iff.mpr (printable format arguments shows) with ⟨text, shown⟩
        cases shown.symm.trans unprintable

end Node

/-- An expression has a datum in a scope exactly if no format that is shown on the way asks
for more decimal places of a number than can be shown; and this is what it takes for any
format to have a text with any arguments. -/
theorem evaluation_fails_in_formatting_only (expression : Expression) (scope : Scope) :
    ((∃ datum, expression.eval scope = .ok datum) ↔
      ∀ format arguments, Node.Shows scope none expression.root format arguments →
        ¬ TooPrecise (segments format.toList) arguments) ∧
    ∀ format arguments, (∃ text, sprintf format arguments = .ok text) ↔
      ¬ TooPrecise (segments format.toList) arguments :=
  ⟨Node.exists_eval_iff, fun _ _ => exists_sprintf_iff⟩

/-! ## Too many decimal places -/

section

variable {registry : Registry} {flags width digits : List Char}

theorem ofText_of_node {tree : Node} {text : List Char}
    (read : Node.ofText registry text = .ok tree) :
    Expression.ofText registry (.ofList text) = .ok (.ofTree (.ofList text) tree) := by
  rw [Expression.ofText, String.toList_ofList, read]
  rfl

/-- A written tree without layout around it is read as its expression. -/
theorem ofText_of_written (reachable : registry.Reachable) {tree : Node} {text : List Char}
    (written : Written registry tree text) :
    Expression.ofText registry (.ofList text) = .ok (.ofTree (.ofList text) tree) := by
  have read := (readable_of_written reachable written).readNode isGap_nil isGap_nil
    (Nat.lt_succ_self _)
  rw [List.nil_append, List.append_nil] at read
  rw [ofText_of_node read, Expression.ofTree_unslotted]

/-- A call of `sprintf` with a format and a number, as it is written. -/
theorem written_sprintf {format : List Char} (plain : '\\' ∉ format) (literal : Number.Literal) :
    Written registry
      (.call false .sprintf [.text (.ofList format), .number literal.numeral.toFloat])
      ("sprintf(".toList ++ (singleQuoted format ++ ',' :: literal.text) ++ [')']) := by
  let shown : Placed :=
    ⟨[], .text (.ofList format), singleQuoted format, [], isGap_nil, isGap_nil⟩
  let number : Placed :=
    ⟨[], .number literal.numeral.toFloat, literal.text, [], isGap_nil, isGap_nil⟩
  have takes : Callee.Takes registry .sprintf [shown, number].length := Nat.le_succ 1
  have text : Written registry shown.tree shown.text := by
    have quotable : Quotable (String.ofList format).toList := by
      rw [String.toList_ofList]
      exact quotable_of_not_mem plain
    have text : Written registry shown.tree (singleQuoted (String.ofList format).toList) :=
      .text quotable
    rwa [String.toList_ofList] at text
  have call : Written registry
      (.call false .sprintf [.text (.ofList format), .number literal.numeral.toFloat])
      (negation false ++ Callee.sprintf.name.toList ++
        ('(' :: argumentsText [] [shown, number] ++ [')'])) := by
    have written : ∀ argument ∈ [shown, number], Written registry argument.tree argument.text :=
      List.forall_mem_cons.mpr ⟨text, List.forall_mem_singleton.mpr (.number literal)⟩
    exact .call [shown, number] takes (.none (by simp)) written
  have spelled : "sprintf(".toList ++ (singleQuoted format ++ ',' :: literal.text) ++ [')'] =
      negation false ++ Callee.sprintf.name.toList ++
        ('(' :: argumentsText [] [shown, number] ++ [')']) := by
    simp [negation, Callee.name, argumentsText, Placed.source, shown, number, List.intercalate]
  rwa [spelled]

omit [RegexLibrary] in
theorem no_backslash_in_directive (flagged : ∀ c ∈ flags, c = '-' ∨ c = '0')
    (widthDigits : ∀ c ∈ width, c.isDigit = true)
    (precisionDigits : ∀ c ∈ digits, c.isDigit = true) :
    '\\' ∉ '%' :: (flags ++ (width ++ '.' :: (digits ++ ['f']))) := by
  intro mem
  simp only [List.mem_cons, List.mem_append] at mem
  rcases mem with same | inFlags | inWidth | same | inDigits | same | none
  · cases same
  · rcases flagged _ inFlags with same | same <;> cases same
  · cases widthDigits _ inWidth
  · cases same
  · cases precisionDigits _ inDigits
  · cases same
  · cases none

/-- A call of `sprintf` that shows a number with more than 65535 and no more than a million
decimal places is read, but it has no datum in any scope. -/
theorem sprintf_call_without_datum (reachable : registry.Reachable) (literal : Number.Literal)
    (flagged : ∀ c ∈ flags, c = '-' ∨ c = '0') (widthDigits : ∀ c ∈ width, c.isDigit = true)
    (noFlag : width.head? ≠ some '0') (precisionDigits : ∀ c ∈ digits, c.isDigit = true)
    (many : 65535 < Number.digitsValue digits) (few : Number.digitsValue digits ≤ 1000000) :
    let format := '%' :: (flags ++ (width ++ '.' :: (digits ++ ['f'])))
    let source := "sprintf(".toList ++ (singleQuoted format ++ ',' :: literal.text) ++ [')']
    ∃ expression, Expression.ofText registry (.ofList source) = .ok expression ∧
      ∀ scope, expression.eval scope = .error .precisionOutOfRange := by
  intro format source
  let tree := Node.call false .sprintf [.text (.ofList format), .number literal.numeral.toFloat]
  have unprintable : sprintf (.ofList format) [.number literal.numeral.toFloat] =
      .error .precisionOutOfRange :=
    (sprintf_number_eq_error_iff flagged widthDigits noFlag precisionDigits).mpr ⟨many, few⟩
  have written : Written registry tree source :=
    written_sprintf (no_backslash_in_directive flagged widthDigits precisionDigits) literal
  refine ⟨_, ofText_of_written reachable written, fun scope => ?_⟩
  have evaluated : tree.eval scope none = .error .precisionOutOfRange := by
    simp [tree, Node.eval, Node.evalCall, Node.evalAll, unprintable]
  exact evaluated

end

end FieldRules

namespace FieldRules

open FieldRules.Text FieldRules.Expr
open Format (Fault TooPrecise segments)

attribute [local instance] RegexLibrary.empty

/-- The length of the number one with 70000 decimal places, which has no datum. -/
theorem length_of_long_fraction_without_datum :
    ∃ expression, Expression.ofText .empty "len(sprintf('%.70000f',1))" = .ok expression ∧
      ∀ scope, expression.eval scope = .error .precisionOutOfRange := by
  let format := ['%', '.', '7', '0', '0', '0', '0', 'f']
  let one : Number.Literal :=
    ⟨[], ['1'], [], by decide, by decide, List.forall_mem_singleton.mpr rfl, List.forall_mem_nil _⟩
  let shown := Node.call false .sprintf [.text (.ofList format), .number one.numeral.toFloat]
  let placed : Placed :=
    ⟨[], shown, "sprintf(".toList ++ (singleQuoted format ++ ',' :: one.text) ++ [')'], [],
      isGap_nil, isGap_nil⟩
  have inner : Written .empty placed.tree placed.text := written_sprintf (by decide) one
  have takes : Callee.Takes .empty .len [placed].length := rfl
  have written : Written .empty (.call false .len [shown])
      ("len".toList ++ ('(' :: argumentsText [] [placed] ++ [')'])) :=
    .call [placed] takes (.none (by simp)) (List.forall_mem_singleton.mpr inner)
  have digits : ∀ c ∈ ['7', '0', '0', '0', '0'], c.isDigit = true :=
    List.all_eq_true.mp rfl
  have unprintable : sprintf (.ofList format) [.number one.numeral.toFloat] =
      .error .precisionOutOfRange :=
    (sprintf_number_eq_error_iff (List.forall_mem_nil _) (List.forall_mem_nil _) (by decide)
      digits).mpr (by decide)
  have source : "len(sprintf('%.70000f',1))" =
      String.ofList ("len".toList ++ ('(' :: argumentsText [] [placed] ++ [')'])) := rfl
  rw [source]
  refine ⟨_, ofText_of_written .empty written, fun scope => ?_⟩
  have evaluated : (Node.call false .len [shown]).eval scope none =
      .error .precisionOutOfRange := by
    simp [shown, Node.eval, Node.evalCall, Node.evalAll, unprintable]
  exact evaluated

end FieldRules
