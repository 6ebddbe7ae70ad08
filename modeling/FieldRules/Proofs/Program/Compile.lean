import FieldRules.Program.Compile
import FieldRules.Proofs.Expr.Annotation
import FieldRules.Proofs.Program.Flatten

/-!
# What a program is compiled from

A record type compiles exactly if it can be flattened, its annotations can be
read, and every path in them means a field.  The program then has one field for
each flat field, with one compiled expression for each expression of its
annotation.
-/

namespace FieldRules

open FieldRules.Expr (Reading)

variable [RegexLibrary]

/-- The expressions that a flat field carries in its annotation. -/
def FlatField.declared (registry : Registry) (field : FlatField) : Reading Annotation :=
  match field.source with
  | none => .ok []
  | some source => Annotation.ofText registry source

/-- A path that is looked up at a position. -/
def Means (paths : List String) (owner path : String) (index : Nat) : Prop :=
  resolve paths owner path = some index

/-- A compiled expression of a flat field with its source. -/
structure CompiledFrom (paths : List String) (field : FlatField) (named : NamedExpression)
    (compiled : CompiledExpression) : Prop where
  name : compiled.name = named.name
  selector : compiled.selector = selectorOf field.path named.name
  expression : compiled.expression = named.expression
  refs : List.Forall₂ (Means paths field.ownerPath) named.expression.fieldPaths compiled.refs

/-- A field of a program with the flat field that it stands for. -/
structure FieldFrom (registry : Registry) (paths : List String) (field : FlatField)
    (programField : ProgramField) : Prop where
  path : programField.path = field.path
  read : programField.read = field.read
  expressions : ∃ named, field.declared registry = .ok named ∧
    List.Forall₂ (CompiledFrom paths field) named programField.expressions

variable {registry : Registry} {paths : List String} {field : FlatField}

omit [RegexLibrary] in
theorem resolveAll_eq_ok_iff {owner : String} {names : List String} {refs : List Nat} :
    resolveAll paths owner names = .ok refs ↔ List.Forall₂ (Means paths owner) names refs := by
  induction names generalizing refs with
  | nil => cases refs <;> simp [resolveAll]
  | cons name names ih =>
      rw [resolveAll]
      constructor
      · intro resolved
        split at resolved
        · cases resolved
        · rename_i index found
          obtain ⟨rest, restResolved, same⟩ := bind_eq_ok_iff.mp resolved
          cases same
          exact .cons found (ih.mp restResolved)
      · rintro (_ | ⟨found, meant⟩)
        simp only [show resolve paths owner name = _ from found]
        exact bind_eq_ok_iff.mpr ⟨_, ih.mpr meant, rfl⟩

theorem NamedExpression.compile_eq_ok_iff {named : NamedExpression}
    {compiled : CompiledExpression} :
    named.compile paths field = .ok compiled ↔ CompiledFrom paths field named compiled := by
  constructor
  · intro success
    obtain ⟨refs, resolved, same⟩ := bind_eq_ok_iff.mp success
    cases same
    exact ⟨rfl, rfl, rfl, resolveAll_eq_ok_iff.mp resolved⟩
  · rintro ⟨name, selector, expression, refs⟩
    cases compiled
    subst name selector expression
    exact bind_eq_ok_iff.mpr ⟨_, resolveAll_eq_ok_iff.mpr refs, rfl⟩

theorem compileAnnotation_eq_ok_iff {source : String} {expressions : List CompiledExpression} :
    compileAnnotation registry paths field source = .ok expressions ↔
      ∃ named, Annotation.ofText registry source = .ok named ∧
        List.Forall₂ (CompiledFrom paths field) named expressions := by
  unfold compileAnnotation
  cases Annotation.ofText registry source with
  | error error => simp
  | ok named => simp [mapM_eq_ok_iff, NamedExpression.compile_eq_ok_iff]

theorem FlatField.outcome_compile_eq_ok_iff {root : RecordType} {programField : ProgramField} :
    (field.compile registry root paths).outcome = .ok programField ↔
      FieldFrom registry paths field programField := by
  rw [FlatField.compile]
  constructor
  · intro success
    cases source : field.source with
    | none =>
        rw [source] at success
        cases success
        exact ⟨rfl, rfl, [], by rw [FlatField.declared, source], .nil⟩
    | some text =>
        simp only [source] at success
        cases compiled : compileAnnotation registry paths field text with
        | error error => simp [compiled, Except.bind] at success
        | ok expressions =>
            rw [compiled] at success
            cases success
            obtain ⟨named, read, aligned⟩ := compileAnnotation_eq_ok_iff.mp compiled
            exact ⟨rfl, rfl, named, by rw [FlatField.declared, source, ← read], aligned⟩
  · rintro ⟨path, read, named, declared, aligned⟩
    cases programField
    subst path read
    rw [FlatField.declared] at declared
    cases source : field.source with
    | none =>
        rw [source] at declared
        cases declared
        cases aligned
        rfl
    | some text =>
        rw [source] at declared
        simp only [compileAnnotation_eq_ok_iff.mpr ⟨named, declared, aligned⟩]
        rfl

/-- The fields of a program stand for the flat fields in order. -/
theorem outcome_compileFields_eq_ok_iff {root : RecordType} {flat : List FlatField}
    {fields : List ProgramField} :
    (compileFields registry root paths flat).outcome = .ok fields ↔
      List.Forall₂ (FieldFrom registry paths) flat fields := by
  induction flat generalizing fields with
  | nil => cases fields <;> simp [compileFields]
  | cons field flat ih =>
      rw [compileFields, Logged.outcome_bind_eq_ok_iff]
      constructor
      · rintro ⟨first, firstCompiled, success⟩
        obtain ⟨rest, restCompiled, same⟩ := Logged.outcome_bind_eq_ok_iff.mp success
        cases same
        exact .cons (FlatField.outcome_compile_eq_ok_iff.mp firstCompiled) (ih.mp restCompiled)
      · rintro (_ | ⟨first, rest⟩)
        exact ⟨_, FlatField.outcome_compile_eq_ok_iff.mpr first,
          Logged.outcome_bind_eq_ok_iff.mpr ⟨_, ih.mpr rest, rfl⟩⟩

/-- The programs of a record type stand for its flat fields. -/
theorem Program.outcome_compile_eq_ok_iff {environment : Environment} {tag : String}
    {root : RecordType} {program : Program} :
    (compile environment tag root).outcome = .ok program ↔
      program.type = root ∧ ∃ flat, (environment.catalog.flatten tag root).outcome = .ok flat ∧
        List.Forall₂ (FieldFrom environment.registry (flat.map FlatField.path)) flat
          program.fields := by
  rw [compile, Logged.outcome_bind_eq_ok_iff]
  constructor
  · rintro ⟨flat, flattened, success⟩
    obtain ⟨fields, fieldsCompiled, success⟩ := Logged.outcome_bind_eq_ok_iff.mp success
    simp only [Logged.outcome_bind, Logged.outcome_report] at success
    cases success
    exact ⟨rfl, flat, flattened, outcome_compileFields_eq_ok_iff.mp fieldsCompiled⟩
  · rintro ⟨rfl, flat, flattened, fieldsFrom⟩
    exact ⟨flat, flattened, Logged.outcome_bind_eq_ok_iff.mpr
      ⟨_, outcome_compileFields_eq_ok_iff.mpr fieldsFrom, rfl⟩⟩

end FieldRules
