import FieldRules.Eval.Format
import FieldRules.Eval.Operation
import FieldRules.Eval.Scope
import FieldRules.Expr.Node

/-!
# Evaluation

An expression is evaluated in a scope.  What does not fit together yields nil,
a false comparison or the undefined number; only formatting a number with far
too many decimal places has no result at all.

Both operands of an operator are evaluated, `in` looks at all its candidates,
and `range` visits every element even after one that fails.
-/

namespace FieldRules

open Format (Fault)

variable [RegexLibrary]

/-- The result of an evaluation. -/
abbrev Evaluation (α : Type) := Except Fault α

/-- The key and value of the element that `range` visits, if there is one. -/
abbrev Element := Option (Datum × Datum)

/-- The datum at which a selector starts. -/
def Origin.start (scope : Scope) (element : Element) : Origin → Datum
  | .current => scope.current
  | .field path slot => scope.fieldAt slot path
  | .key => (element.map (·.1)).getD .nil
  | .value => (element.map (·.2)).getD .nil

/-- The number of characters or elements, nil for everything else. -/
def Datum.measured (datum : Datum) : Datum :=
  match datum.size? with
  | some size => .number (Number.ofNat size)
  | none => .nil

/-- Whether a pattern matches in a text, nil for everything else. -/
def Datum.matched (pattern : Pattern) : Datum → Datum
  | .text s => .bool (pattern.matchesIn s)
  | _ => .nil

namespace Node

mutual

/-- The datum of a tree. -/
def eval (scope : Scope) (element : Element) : Node → Evaluation Datum
  | nil => .ok .nil
  | bool b => .ok (.bool b)
  | number x => .ok (.number x)
  | text s => .ok (.text s)
  | selector origin subscripts =>
      evalSubscripts scope element (origin.start scope element) subscripts
  | group negate inner => do
      let datum ← inner.eval scope element
      .ok (datum.negateIf negate)
  | binary operator left right => do
      let left ← left.eval scope element
      let right ← right.eval scope element
      .ok (operator.apply left right)
  | call negate callee arguments => do
      let datum ← evalCall scope element callee arguments
      .ok (datum.negateIf negate)

/-- Go through subscripts from a datum on, up to the first that leads to nil. -/
def evalSubscripts (scope : Scope) (element : Element) (target : Datum) :
    List Node → Evaluation Datum
  | [] => .ok target
  | subscript :: subscripts => do
      let key ← subscript.eval scope element
      let inner := target.index key
      if inner.isNil then .ok .nil else evalSubscripts scope element inner subscripts

/-- The datum of a call.  Calls with a number of arguments that their callee
does not take are nil; the parser produces none. -/
def evalCall (scope : Scope) (element : Element) (callee : Callee) :
    (arguments : List Node) → Evaluation Datum
  | [] => .ok .nil
  | first :: rest =>
      match callee with
      | .len => do .ok (← first.eval scope element).measured
      | .regexp pattern => do .ok ((← first.eval scope element).matched pattern)
      | .predicate _ holds => do .ok (.bool (holds (← first.eval scope element)))
      | .sprintf => do
          match ← first.eval scope element with
          | .text format =>
              let arguments ← evalAll scope element rest
              .ok (.text (← sprintf format arguments))
          | _ => .ok .nil
      | .oneOf => do
          let subject ← first.eval scope element
          let candidates ← evalAll scope element rest
          .ok (.bool (candidates.any subject.same))
      | .range => do
          let subject ← first.eval scope element
          match rest with
          | [] => .ok .nil
          | body :: _ =>
              match subject.elements? with
              | none => .ok .nil
              | some elements =>
                  let results ← elements.mapM fun visited => body.eval scope (some visited)
                  .ok (.bool (results.all Datum.truthy))

/-- The data of several trees, from left to right. -/
def evalAll (scope : Scope) (element : Element) : List Node → Evaluation (List Datum)
  | [] => .ok []
  | node :: nodes => do
      let datum ← node.eval scope element
      let data ← evalAll scope element nodes
      .ok (datum :: data)

end

end Node

namespace Expression

/-- The datum of an expression in a scope. -/
def eval (expression : Expression) (scope : Scope) : Evaluation Datum :=
  expression.root.eval scope none

/-- The value of an expression in a scope. -/
def evalValue (expression : Expression) (scope : Scope) : Evaluation Value :=
  (expression.eval scope).map Datum.value

end Expression

end FieldRules
