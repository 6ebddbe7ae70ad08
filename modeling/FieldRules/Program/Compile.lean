import FieldRules.Program.Basic
import FieldRules.Program.Flatten

/-!
# Compiling record types

A record type is flattened first; then the annotations of the flat fields are
read in order, and each path in them is bound to a field.  A path means a field
of the record that holds the annotated field, or else a field of the record
type itself.
-/

namespace FieldRules

variable [RegexLibrary]

/-- What compilation depends on: the descriptions of record types, and the
predicates that annotations may call. -/
structure Environment where
  catalog : Catalog
  registry : Registry

/-- The position of the field that a path means in the record at `owner`. -/
def resolve (paths : List String) (owner path : String) : Option Nat :=
  if owner = "" then paths.idxOf? path
  else (paths.idxOf? (joinPath owner path)).orElse fun _ => paths.idxOf? path

/-- Bind paths to fields, up to the first path that means none. -/
def resolveAll (paths : List String) (owner : String) :
    List String → Except AnnotationError (List Nat)
  | [] => .ok []
  | path :: rest =>
      match resolve paths owner path with
      | none => .error (.unknownField path)
      | some index => do
          let indices ← resolveAll paths owner rest
          .ok (index :: indices)

/-- Compile an expression of a flat field. -/
def NamedExpression.compile (paths : List String) (field : FlatField) (named : NamedExpression) :
    Except AnnotationError CompiledExpression := do
  let refs ← resolveAll paths field.ownerPath named.expression.fieldPaths
  .ok ⟨named.name, selectorOf field.path named.name, named.expression, refs⟩

/-- The compiled expressions of an annotation. -/
def compileAnnotation (registry : Registry) (paths : List String) (field : FlatField)
    (source : String) : Except AnnotationError (List CompiledExpression) :=
  match Annotation.ofText registry source with
  | .error error => .error (.unreadable error)
  | .ok named => named.mapM (·.compile paths field)

/-- Compile a flat field. -/
def FlatField.compile (registry : Registry) (root : RecordType) (paths : List String)
    (field : FlatField) : Logged CompileError ProgramField :=
  match field.source with
  | none => pure ⟨field.path, field.read, []⟩
  | some source =>
      match compileAnnotation registry paths field source with
      | .ok expressions => pure ⟨field.path, field.read, expressions⟩
      | .error error => do
          .report (.annotationRejected root field.path error.message)
          .fail (.rejected root field.path error)

/-- Compile flat fields in order. -/
def compileFields (registry : Registry) (root : RecordType) (paths : List String) :
    List FlatField → Logged CompileError (List ProgramField)
  | [] => pure []
  | field :: fields => do
      let first ← field.compile registry root paths
      let rest ← compileFields registry root paths fields
      pure (first :: rest)

/-- Compile the annotations of a record type under a tag. -/
def Program.compile (environment : Environment) (tag : String) (root : RecordType) :
    Logged CompileError Program := do
  let flat ← environment.catalog.flatten tag root
  let fields ← compileFields environment.registry root (flat.map (·.path)) flat
  let program : Program := ⟨root, fields⟩
  .report (.programCompiled root program.fields.length program.size)
  pure program

end FieldRules
