import FieldRules.Eval.Basic
import FieldRules.Expr.Annotation
import FieldRules.Log.Logged
import FieldRules.Record.Instance
import FieldRules.Text.Quoted

/-!
# Programs

The program of a record type holds its flat fields with their compiled
expressions.  An expression is addressed by a selector: the path of its field,
followed by `@` and the name of the expression if it has one.  An instance of
another type than the program's has nil for every expression.
-/

namespace FieldRules

open Format (Fault)

variable [RegexLibrary]

/-- An expression of a field, with the fields that it refers to. -/
structure CompiledExpression where
  name : Option String
  selector : String
  expression : Expression
  /-- The positions of the fields that it refers to, by slot. -/
  refs : List Nat

/-- The written name of a compiled expression. -/
def CompiledExpression.shownName (compiled : CompiledExpression) : String :=
  compiled.name.getD defaultName

/-- The selector of an expression of the field at a path. -/
def selectorOf (path : String) : (name : Option String) → String
  | none => path
  | some name => path ++ "@" ++ name

/-- A field of a program. -/
structure ProgramField where
  path : String
  /-- The datum of the field in an instance. -/
  read : Instance → Datum
  expressions : List CompiledExpression

/-- The compiled expressions of a record type. -/
structure Program where
  type : RecordType
  fields : List ProgramField

namespace Program

/-- The compiled expressions with their fields, in the order of declaration. -/
def expressions (program : Program) : List (ProgramField × CompiledExpression) :=
  program.fields.flatMap fun field => field.expressions.map fun compiled => (field, compiled)

/-- The number of compiled expressions. -/
def size (program : Program) : Nat :=
  program.expressions.length

/-- The selectors of the compiled expressions. -/
def selectors (program : Program) : List String :=
  program.expressions.map (·.2.selector)

/-- The description of a program in diagnostics. -/
def describe (program : Program) : String :=
  "Program \x7b type_name: " ++ Text.quoted program.type.name ++
    ", fields: " ++ toString program.fields.length ++
    ", exprs: " ++ toString program.size ++ " \x7d"

/-! ## Evaluation -/

/-- The datum of the field at a position. -/
def readAt (program : Program) (inst : Instance) (index : Nat) : Datum :=
  match program.fields[index]? with
  | some field => field.read inst
  | none => .nil

/-- The datum behind a slot of a compiled expression. -/
def readSlot (program : Program) (inst : Instance) (compiled : CompiledExpression)
    (slot : Nat) : Datum :=
  match compiled.refs[slot]? with
  | some index => program.readAt inst index
  | none => .nil

/-- The scope of a compiled expression of a field in an instance. -/
def scope (program : Program) (inst : Instance) (field : ProgramField)
    (compiled : CompiledExpression) : Scope where
  current := field.read inst
  field path :=
    match compiled.expression.fieldPaths.idxOf? path with
    | some slot => program.readSlot inst compiled slot
    | none => .nil
  fieldAt slot _ := program.readSlot inst compiled slot

/-- The value of a compiled expression of a field in an instance. -/
def evalAt (program : Program) (inst : Instance) (field : ProgramField)
    (compiled : CompiledExpression) : Except Fault Value :=
  if inst.type = program.type then compiled.expression.evalValue (program.scope inst field compiled)
  else .ok .nil

/-! ## Selectors -/

/-- A text without one `@` at its end. -/
def stripMark (selector : String) : String :=
  match selector.toList.reverse with
  | '@' :: rest => .ofList rest.reverse
  | _ => selector

/-- The compiled expression with a selector; one `@` at the end is left out, so
that `path@` addresses the default expression. -/
def find? (program : Program) (selector : String) : Option (ProgramField × CompiledExpression) :=
  program.expressions.find? (·.2.selector = stripMark selector)

/-- The value of the expression with a selector, nil if there is none. -/
def eval (program : Program) (inst : Instance) (selector : String) : Logged Fault Value :=
  match program.find? selector with
  | some (field, compiled) => .ofExcept (program.evalAt inst field compiled)
  | none => do
      .report (.noExpression program.type selector)
      pure .nil

/-- The datum of the field at a path, if there is such a field. -/
def field? (program : Program) (inst : Instance) (path : String) : Option Datum :=
  (program.fields.find? (·.path = path)).map (·.read inst)

end Program

/-! ## Visits -/

/-- A compiled expression that is looked at in an instance. -/
structure Visit where
  program : Program
  inst : Instance
  field : ProgramField
  compiled : CompiledExpression

namespace Visit

/-- The value of the visited expression. -/
def eval (visit : Visit) : Except Fault Value :=
  visit.program.evalAt visit.inst visit.field visit.compiled

/-- The value of the expression of the same field that has a given name. -/
def evalNamed (visit : Visit) (name : String) : Logged Fault Value :=
  visit.program.eval visit.inst (selectorOf visit.field.path (some name))

end Visit

namespace Program

/-- The visits to all compiled expressions in an instance. -/
def visits (program : Program) (inst : Instance) : List Visit :=
  program.expressions.map fun entry => ⟨program, inst, entry.1, entry.2⟩

/-- Make visits one after the other for as long as the visitor asks for more. -/
def visitWhile {ε σ : Type} (visitor : Visit → σ → Logged ε (σ × Bool)) :
    List Visit → σ → Logged ε σ
  | [], state => pure state
  | visit :: visits, state => do
      let (state, more) ← visitor visit state
      if more then visitWhile visitor visits state else pure state

/-- Visit the compiled expressions in the order of declaration for as long as the
visitor asks for more. -/
def range {ε σ : Type} (program : Program) (inst : Instance)
    (visitor : Visit → σ → Logged ε (σ × Bool)) (state : σ) : Logged ε σ :=
  visitWhile visitor (program.visits inst) state

/-- The values of all compiled expressions by their selectors. -/
def evalAll (program : Program) (inst : Instance) : Logged Fault (List (String × Value)) :=
  program.range inst
    (fun visit values => do
      let value ← Logged.ofExcept visit.eval
      pure (values ++ [(visit.compiled.selector, value)], true))
    []

end Program

end FieldRules
