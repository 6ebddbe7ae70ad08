import FieldRules.Expr.Operator
import FieldRules.Text.Quoted

/-!
# Syntax errors

Everything that can be wrong with the text of an expression or an annotation.
Errors about a place show the text from that place on, clipped.
-/

namespace FieldRules

open FieldRules.Text (quoted quotedChar)

/-- How many arguments a function takes. -/
structure Arity where
  least : Nat
  most : Option Nat
  deriving Repr, DecidableEq

/-- Whether a number of arguments fits. -/
def Arity.admits (arity : Arity) (count : Nat) : Bool :=
  arity.least ≤ count && arity.most.all (count ≤ ·)

/-- The number of arguments, in words. -/
def Arity.toText (arity : Arity) : String :=
  match arity.most with
  | none => "at least " ++ toString arity.least
  | some most =>
      if most = arity.least then toString most
      else toString arity.least ++ " or " ++ toString most

/-- What is wrong with a text. -/
inductive SyntaxError where
  | empty
  | expectedOperand (near : String)
  | unexpectedEnd (operator : Operator)
  | trailingInput (near : String)
  | unmatched (opening : Char) (near : String)
  | duplicateName (name : String)
  | invalidName (block : String)
  | unknownFunction (name : String)
  | literalRequired (function : String)
  | invalidPattern (pattern : String)
  | wrongArity (function : String) (expected : Arity) (got : Nat)
  deriving Repr, DecidableEq

/-- The longest text shown in an error. -/
def clipLength : Nat := 24

/-- The start of a text, with dots in place of the rest. -/
def clip (text : List Char) : String :=
  if text.length ≤ clipLength then .ofList text
  else .ofList (text.take clipLength ++ ['.', '.', '.'])

/-- The message of a syntax error. -/
def SyntaxError.message : SyntaxError → String
  | .empty => "empty expression"
  | .expectedOperand near => "expected operand near " ++ quoted near
  | .unexpectedEnd operator => "expected operand after " ++ quoted (.ofList operator.symbol)
  | .trailingInput near => "unexpected input " ++ quoted near
  | .unmatched opening near =>
      "unmatched " ++ String.ofList (quotedChar opening) ++ " near " ++ quoted near
  | .duplicateName name => "duplicate expression name " ++ quoted name
  | .invalidName block => "invalid expression block " ++ quoted block
  | .unknownFunction name => "unknown function " ++ quoted name
  | .literalRequired function =>
      function ++ "() requires a string literal as its first argument"
  | .invalidPattern pattern => "invalid regexp " ++ quoted pattern
  | .wrongArity function expected got =>
      function ++ "() expects " ++ expected.toText ++ " argument(s), got " ++ toString got

end FieldRules
