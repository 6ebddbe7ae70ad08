import FieldRules.Expr.Printer
import FieldRules.Proofs.Number.Literal
import FieldRules.Proofs.Text.Blank
import FieldRules.Proofs.Text.Quotable

/-!
# Written expressions

The written form of a tree is the text of an expression: operators stand between
their operands, strings between quotes with their quotes escaped, groups in
parentheses, subscripts in brackets, and arguments behind each other with commas
between them.  Layout may stand around operators and around everything in
brackets.

A tree has a written form when its operators respect their priorities and its
calls, paths, strings and numbers are ones that can be read.
-/

namespace FieldRules

open FieldRules.Text

variable [RegexLibrary]

/-- A tree as it stands in a text, with layout on both sides. -/
structure Placed where
  before : List Char
  tree : Node
  text : List Char
  after : List Char
  gap_before : IsGap before
  gap_after : IsGap after

/-- The text of a placed tree with the layout around it. -/
def Placed.source (placed : Placed) : List Char :=
  placed.before ++ placed.text ++ placed.after

/-- The path of a selector is a sequence of words with dots between them. -/
def Origin.WellFormed : Origin → Prop
  | .field path _ => isFieldPath path.toList = true
  | _ => True

/-- The number of arguments behind the pattern of `regexp` or in the parentheses
of any other callee; predicates are the registered ones. -/
def Callee.Takes (registry : Registry) : Callee → (count : Nat) → Prop
  | .len, count => count = 1
  | .regexp _, count => count = 1
  | .sprintf, count => 1 ≤ count
  | .oneOf, count => 1 ≤ count
  | .range, count => count = 2
  | .predicate name holds, count => registry.find? name = some holds ∧ count = 1

/-- The texts of literal arguments: the pattern of `regexp`, with layout around
it.  No other callee has any. -/
inductive Callee.WritesLiterals : Callee → List (List Char) → Prop
  | pattern {pattern : Pattern} {before after : List Char}
      (quotable : Quotable pattern.text.toList) (gap_before : IsGap before)
      (gap_after : IsGap after) :
      WritesLiterals (.regexp pattern)
        [before ++ singleQuoted pattern.text.toList ++ after]
  | none {callee : Callee} (noPattern : ∀ pattern, callee ≠ .regexp pattern) :
      WritesLiterals callee []

/-- Texts in square brackets, one behind the other. -/
def bracketed (contents : List (List Char)) : List Char :=
  contents.flatMap fun content => '[' :: content ++ [']']

/-- Arguments with commas between them, literal ones first. -/
def argumentsText (literals : List (List Char)) (arguments : List Placed) : List Char :=
  [','].intercalate (literals ++ arguments.map Placed.source)

/-- The written forms of trees. -/
inductive Written (registry : Registry) : Node → List Char → Prop
  | nil : Written registry .nil "nil".toList
  | bool (b : Bool) :
      Written registry (.bool b) (if b then "true".toList else "false".toList)
  | number (literal : Number.Literal) :
      Written registry (.number literal.numeral.toFloat) literal.text
  | text {s : String} (quotable : Quotable s.toList) :
      Written registry (.text s) (singleQuoted s.toList)
  | selector {origin : Origin} (wellFormed : origin.WellFormed) (subscripts : List Placed)
      (written : ∀ subscript ∈ subscripts, Written registry subscript.tree subscript.text) :
      Written registry (.selector origin (subscripts.map Placed.tree))
        (origin.render ++ bracketed (subscripts.map Placed.source))
  | group {negate : Bool} (inner : Placed) (written : Written registry inner.tree inner.text) :
      Written registry (.group negate inner.tree)
        (negation negate ++ ('(' :: inner.source ++ [')']))
  | binary {operator : Operator} {left right : Node} {leftText before after rightText : List Char}
      (left_tight : operator.priority ≤ left.priority)
      (right_tight : operator.priority < right.priority)
      (left_written : Written registry left leftText)
      (right_written : Written registry right rightText) (gap_before : IsGap before)
      (gap_after : IsGap after) :
      Written registry (.binary operator left right)
        (leftText ++ (before ++ operator.symbol ++ after) ++ rightText)
  | call {negate : Bool} {callee : Callee} (arguments : List Placed)
      (takes : callee.Takes registry arguments.length) {literals : List (List Char)}
      (writes : callee.WritesLiterals literals)
      (written : ∀ argument ∈ arguments, Written registry argument.tree argument.text) :
      Written registry (.call negate callee (arguments.map Placed.tree))
        (negation negate ++ callee.name.toList ++
          ('(' :: argumentsText literals arguments ++ [')']))

end FieldRules
