import FieldRules.Expr.Chain
import FieldRules.Expr.Operand

/-!
# Reading expressions

A whole expression is a chain of operands and operators with layout around
them.  A text inside brackets is shorter than the text it was cut from, so
expressions nest at most as deep as their text is long.
-/

namespace FieldRules.Expr

open FieldRules.Text

variable [RegexLibrary]

/-- Read the operators and operands that follow a first operand, up to the end
of the text; `steps` bounds their number. -/
def readLinks (operand : List Char → Reading (Node × List Char)) :
    (steps : Nat) → List Char → Reading (List (Operator × Node))
  | 0, _ => .ok []
  | steps + 1, text =>
      match skipLayout text with
      | [] => .ok []
      | text =>
          match readOperator text with
          | none => .error (.trailingInput (clip text))
          | some (operator, rest) =>
              match skipLayout rest with
              | [] => .error (.unexpectedEnd operator)
              | rest => do
                  let (right, after) ← operand rest
                  let links ← readLinks operand steps after
                  .ok ((operator, right) :: links)

/-- Read a whole text as a chain of operands. -/
def readChain (operand : List Char → Reading (Node × List Char)) (text : List Char) :
    Reading Chain :=
  match skipLayout text with
  | [] => .error .empty
  | text => do
      let (first, rest) ← operand text
      let links ← readLinks operand (rest.length + 1) rest
      .ok ⟨first, links⟩

/-- Read an expression that nests at most `depth` deep. -/
def readNode (registry : Registry) : (depth : Nat) → ExpressionReader
  | 0, _ => .error .empty
  | depth + 1, text => do
      let chain ← readChain (readOperand registry (readNode registry depth)) text
      .ok chain.tree

end FieldRules.Expr

namespace FieldRules

variable [RegexLibrary]

/-- Read the tree of an expression. -/
def Node.ofText (registry : Registry) (text : List Char) : Expr.Reading Node :=
  Expr.readNode registry (text.length + 1) text

/-- Read an expression. -/
def Expression.ofText (registry : Registry) (source : String) : Expr.Reading Expression :=
  (Node.ofText registry source.toList).map (.ofTree source)

end FieldRules
