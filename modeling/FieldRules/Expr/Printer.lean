import FieldRules.Expr.Node
import FieldRules.Number.Shortest

/-!
# The prefix form of a tree

A tree is shown fully parenthesised, every operator and callee in front of its
operands.  Strings stand between single quotes, with a backslash in front of
each quote inside.
-/

namespace FieldRules

variable [RegexLibrary]

/-- Put a backslash in front of every single quote. -/
def escapeQuotes (text : List Char) : List Char :=
  text.flatMap fun c => if c = '\'' then ['\\', '\''] else [c]

/-- A text between single quotes. -/
def singleQuoted (text : List Char) : List Char :=
  '\'' :: escapeQuotes text ++ ['\'']

/-- The written start of a selector. -/
def Origin.render : Origin → List Char
  | .current => ['$']
  | .field path _ => '(' :: path.toList ++ [')', '$']
  | .key => ['$', 'k']
  | .value => ['$', 'v']

/-- A callee in front of its arguments: its name, and the pattern of `regexp`
between slashes. -/
def Callee.render : Callee → List Char
  | .regexp pattern => "regexp /".toList ++ pattern.text.toList ++ ['/']
  | callee => callee.name.toList

/-- The mark of a negated group or call. -/
def negation (negate : Bool) : List Char :=
  if negate then ['!'] else []

namespace Node

mutual

/-- The prefix form of a tree. -/
def render : Node → List Char
  | nil => "nil".toList
  | bool b => if b then "true".toList else "false".toList
  | number x => Number.render x
  | text s => singleQuoted s.toList
  | selector origin subscripts => origin.render ++ renderSubscripts subscripts
  | group negate inner => negation negate ++ "(group ".toList ++ inner.render ++ [')']
  | binary operator left right =>
      '(' :: operator.symbol ++ ' ' :: left.render ++ ' ' :: right.render ++ [')']
  | call negate callee arguments =>
      negation negate ++ '(' :: callee.render ++ renderArguments arguments ++ [')']

/-- Subscripts in brackets. -/
def renderSubscripts : List Node → List Char
  | [] => []
  | node :: nodes => '[' :: node.render ++ ']' :: renderSubscripts nodes

/-- Arguments, each behind a blank. -/
def renderArguments : List Node → List Char
  | [] => []
  | node :: nodes => ' ' :: node.render ++ renderArguments nodes

end

/-- The prefix form of a tree, as a string. -/
def toText (node : Node) : String :=
  .ofList node.render

end Node

/-- The prefix form of an expression. -/
def Expression.toText (expression : Expression) : String :=
  expression.root.toText

end FieldRules
