import FieldRules.Expr.Parser

/-!
# Annotations

A field carries expressions in its annotation: one default expression, or
blocks `{name: expression}` one behind the other, where the name `@` stands for
the default expression.  Names do not repeat, and a blank annotation carries
nothing.
-/

namespace FieldRules

open FieldRules.Text

variable [RegexLibrary]

/-- An expression of an annotation; without a name it is the default one. -/
structure NamedExpression where
  name : Option String
  expression : Expression

/-- The name that stands for the default expression. -/
def defaultName : String := "@"

/-- The written name of an expression. -/
def NamedExpression.shownName (named : NamedExpression) : String :=
  named.name.getD defaultName

/-- An annotation: its expressions in order. -/
abbrev Annotation := List NamedExpression

namespace Annotation

open FieldRules.Expr (Reading)

/-- Cut a text at its first colon. -/
def splitAtColon (text : List Char) : Option (List Char × List Char) :=
  match text.dropWhile (· ≠ ':') with
  | [] => none
  | _ :: body => some (text.takeWhile (· ≠ ':'), body)

/-- Read the name of a block: nothing for the default expression. -/
def readName (text : List Char) : Option (Option String) :=
  if trim text = defaultName.toList then some none
  else if isWord (trim text) then some (some (.ofList (trim text)))
  else none

/-- Read what stands between the braces of a block. -/
def readBlock (registry : Registry) (block : List Char) : Reading NamedExpression :=
  match splitAtColon block with
  | none => .error (.invalidName (clip block))
  | some (name, body) =>
      match readName name with
      | none => .error (.invalidName (clip block))
      | some name => do
          let expression ← Expression.ofText registry (.ofList (trim body))
          .ok ⟨name, expression⟩

/-- Read blocks up to the end of a text, `steps` of them at most; `earlier` are
the blocks so far. -/
def readBlocks (registry : Registry) :
    (steps : Nat) → (earlier : Annotation) → List Char → Reading Annotation
  | 0, earlier, _ => .ok earlier
  | steps + 1, earlier, text =>
      match skipLayout text with
      | [] => .ok earlier
      | text =>
          if text.head? ≠ some '{' then .error (.trailingInput (clip text))
          else
            match scanPaired '{' '}' text with
            | none => .error (.unmatched '{' (clip text))
            | some (block, after) => do
                let named ← readBlock registry block
                if earlier.any (·.name = named.name) then
                  .error (.duplicateName named.shownName)
                else readBlocks registry steps (earlier ++ [named]) after

/-- Read an annotation. -/
def ofText (registry : Registry) (source : String) : Reading Annotation :=
  match skipLayout source.toList with
  | [] => .ok []
  | '{' :: rest => readBlocks registry (rest.length + 2) [] ('{' :: rest)
  | text => do
      let expression ← Expression.ofText registry (.ofList (trimEnd text))
      .ok [⟨none, expression⟩]

end Annotation

end FieldRules
