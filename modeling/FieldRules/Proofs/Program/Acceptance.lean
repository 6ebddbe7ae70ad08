import FieldRules.Proofs.Program.Entered
import FieldRules.Proofs.Program.NameResolution

/-!
# Which record types compile

Three things make a record type compile: the types that are expanded for it have
fields with valid and unique names, the annotations of its flat fields can be read,
and the paths in them are registered.  Names are looked at before annotations, and
annotations in the order of the flat fields.  In a program every slot leads to a
field.
-/

namespace FieldRules

/-! ## Registered paths -/

/-- A path is that of a field, in the record at `owner` or as it stands. -/
def Registered (paths : List String) (owner path : String) : Prop :=
  joinPath owner path ∈ paths ∨ path ∈ paths

variable {registry : Registry} {paths : List String} {owner path : String} {field : FlatField}

theorem exists_idxOf?_iff : (∃ index, paths.idxOf? path = some index) ↔ path ∈ paths := by
  rw [← Option.isSome_iff_exists, Option.isSome_iff_ne_none, Ne, List.idxOf?_eq_none_iff, not_not]

/-- A path means a field exactly if it is registered. -/
theorem exists_means_iff : (∃ index, Means paths owner path index) ↔ Registered paths owner path := by
  simp only [Means, resolve, Registered, joinPath]
  split_ifs with atRoot
  · rw [or_self]
    exact exists_idxOf?_iff
  · rw [← exists_idxOf?_iff, ← exists_idxOf?_iff]
    cases paths.idxOf? (owner ++ "." ++ path) with
    | none => simp
    | some index => simp

theorem registered_iff_resolve : Registered paths owner path ↔ resolve paths owner path ≠ none := by
  rw [← exists_means_iff, Option.ne_none_iff_exists']
  rfl

variable [RegexLibrary]

/-! ## Sound fields -/

/-- The annotation of a flat field can be read, and the paths in it are registered. -/
def FlatField.Sound (registry : Registry) (paths : List String) (field : FlatField) : Prop :=
  ∃ blocks, field.declared registry = .ok blocks ∧
    ∀ named ∈ blocks, ∀ path ∈ named.expression.fieldPaths, Registered paths field.ownerPath path

theorem exists_compiledFrom_iff {named : NamedExpression} :
    (∃ compiled, CompiledFrom paths field named compiled) ↔
      ∀ path ∈ named.expression.fieldPaths, Registered paths field.ownerPath path := by
  simp only [← exists_means_iff, ← exists_forall₂_iff]
  constructor
  · rintro ⟨compiled, compiledFrom⟩
    exact ⟨compiled.refs, compiledFrom.refs⟩
  · rintro ⟨refs, means⟩
    exact ⟨⟨_, _, _, refs⟩, rfl, rfl, rfl, means⟩

/-- A flat field becomes a field of a program exactly if it is sound. -/
theorem exists_fieldFrom_iff :
    (∃ programField, FieldFrom registry paths field programField) ↔ field.Sound registry paths := by
  simp only [FlatField.Sound, ← exists_compiledFrom_iff, ← exists_forall₂_iff]
  constructor
  · rintro ⟨programField, -, -, blocks, declared, aligned⟩
    exact ⟨blocks, declared, _, aligned⟩
  · rintro ⟨blocks, declared, expressions, aligned⟩
    exact ⟨⟨_, _, expressions⟩, rfl, rfl, blocks, declared, aligned⟩

/-! ## Offending fields -/

/-- What is wrong with a flat field: its annotation cannot be read, or a path in it,
the first of this kind, is not registered. -/
inductive FlatField.Offends (registry : Registry) (paths : List String) (field : FlatField) :
    AnnotationError → Prop
  | unreadable {error : SyntaxError} (refused : field.declared registry = .error error) :
      Offends registry paths field (.unreadable error)
  | unknown {blocks : Annotation} {before after : List String} {path : String}
      (declared : field.declared registry = .ok blocks)
      (listed : blocks.flatMap (·.expression.fieldPaths) = before ++ path :: after)
      (known : ∀ earlier ∈ before, Registered paths field.ownerPath earlier)
      (unknown : ¬ Registered paths field.ownerPath path) :
      Offends registry paths field (.unknownField path)

/-- Sound fields do not offend. -/
theorem FlatField.Offends.not_sound {error : AnnotationError}
    (offends : field.Offends registry paths error) : ¬ field.Sound registry paths := by
  rintro ⟨blocks, declared, registered⟩
  cases offends with
  | unreadable refused =>
      rw [refused] at declared
      cases declared
  | @unknown blocks' before after path declared' listed known unknown =>
      cases declared.symm.trans declared'
      have mem : path ∈ blocks.flatMap (·.expression.fieldPaths) := by
        rw [listed]
        exact List.mem_append_right _ List.mem_cons_self
      rcases List.mem_flatMap.mp mem with ⟨named, inBlocks, inPaths⟩
      exact unknown (registered named inBlocks path inPaths)

omit [RegexLibrary] in
/-- Paths are bound up to the first that is not registered. -/
theorem exists_of_resolveAll_eq_error {names : List String} {error : AnnotationError}
    (failed : resolveAll paths owner names = .error error) :
    ∃ before path after, names = before ++ path :: after ∧
      (∀ earlier ∈ before, Registered paths owner earlier) ∧
        ¬ Registered paths owner path ∧ error = .unknownField path := by
  induction names with
  | nil => cases failed
  | cons name names ih =>
      rw [resolveAll] at failed
      split at failed
      · rename_i unresolved
        cases failed
        refine ⟨[], name, names, rfl, List.forall_mem_nil _, ?_, rfl⟩
        rw [registered_iff_resolve, unresolved]
        exact not_not_intro rfl
      · rename_i index resolved
        rcases bind_eq_error_iff.mp failed with behind | ⟨indices, -, done⟩
        · rcases ih behind with ⟨before, path, after, rfl, known, unknown, rfl⟩
          have here : Registered paths owner name := exists_means_iff.mp ⟨index, resolved⟩
          exact ⟨name :: before, path, after, rfl, List.forall_mem_cons.mpr ⟨here, known⟩,
            unknown, rfl⟩
        · cases done

/-- An annotation that cannot be compiled makes its field offend. -/
theorem offends_of_compileAnnotation {source : String} {error : AnnotationError}
    (annotated : field.source = some source)
    (failed : compileAnnotation registry paths field source = .error error) :
    field.Offends registry paths error := by
  have declared : field.declared registry = Annotation.ofText registry source := by
    rw [FlatField.declared, annotated]
  unfold compileAnnotation at failed
  split at failed
  · rename_i refused
    cases failed
    exact .unreadable (declared.trans refused)
  · rename_i blocks read
    rcases exists_of_mapM_eq_error failed with ⟨before, named, after, rfl, compiled, fails⟩
    rcases bind_eq_error_iff.mp fails with unresolved | ⟨refs, -, done⟩
    · rcases exists_of_resolveAll_eq_error unresolved with
        ⟨earlier, path, later, listed, known, unknown, rfl⟩
      -- The paths of the expressions before have been bound, so this one is the first unknown.
      have inOrder : (before ++ named :: after).flatMap (·.expression.fieldPaths) =
          (before.flatMap (·.expression.fieldPaths) ++ earlier) ++
            path :: (later ++ after.flatMap (·.expression.fieldPaths)) := by
        rw [List.flatMap_append, List.flatMap_cons, listed]
        simp only [List.append_assoc, List.cons_append]
      refine .unknown (declared.trans read) inOrder ?_ unknown
      refine List.forall_mem_append.mpr ⟨?_, known⟩
      intro path mem
      rcases List.mem_flatMap.mp mem with ⟨other, inBefore, inPaths⟩
      rcases compiled other inBefore with ⟨result, success⟩
      have compiledFrom := NamedExpression.compile_eq_ok_iff.mp success
      exact exists_compiledFrom_iff.mp ⟨result, compiledFrom⟩ path inPaths
    · cases done

variable {root : RecordType} {error : CompileError}

theorem FlatField.exists_offends_of_compile
    (failed : (field.compile registry root paths).outcome = .error error) :
    ∃ reason, error = .rejected root field.path reason ∧ field.Offends registry paths reason := by
  rw [FlatField.compile] at failed
  split at failed
  · cases failed
  · rename_i source annotated
    split at failed
    · cases failed
    · rename_i reason refused
      cases failed
      exact ⟨reason, rfl, offends_of_compileAnnotation annotated refused⟩

/-- Flat fields are compiled up to the first that offends. -/
theorem exists_offends_of_compileFields {flat : List FlatField}
    (failed : (compileFields registry root paths flat).outcome = .error error) :
    ∃ before field after reason, flat = before ++ field :: after ∧
      (∀ earlier ∈ before, earlier.Sound registry paths) ∧
        field.Offends registry paths reason ∧ error = .rejected root field.path reason := by
  induction flat with
  | nil => cases failed
  | cons field flat ih =>
      rw [compileFields] at failed
      rcases Logged.outcome_bind_eq_error_iff.mp failed with here | ⟨first, compiled, behind⟩
      · rcases FlatField.exists_offends_of_compile here with ⟨reason, rfl, offends⟩
        exact ⟨[], field, flat, reason, rfl, List.forall_mem_nil _, offends, rfl⟩
      · rcases Logged.outcome_bind_eq_error_iff.mp behind with behind | ⟨rest, -, done⟩
        · rcases ih behind with ⟨before, later, after, reason, rfl, sound, offends, rfl⟩
          have fieldFrom := FlatField.outcome_compile_eq_ok_iff.mp compiled
          have here : field.Sound registry paths := exists_fieldFrom_iff.mp ⟨first, fieldFrom⟩
          exact ⟨field :: before, later, after, reason, rfl,
            List.forall_mem_cons.mpr ⟨here, sound⟩, offends, rfl⟩
        · cases done

/-! ## Record types -/

variable {environment : Environment} {tag : String}

/-- A record type with valid and unique names compiles exactly if its flat fields are
sound. -/
theorem Program.exists_compile_iff :
    (∃ program, (compile environment tag root).outcome = .ok program) ↔
      ∃ flat, (environment.catalog.flatten tag root).outcome = .ok flat ∧
        ∀ field ∈ flat, field.Sound environment.registry (flat.map FlatField.path) := by
  simp only [outcome_compile_eq_ok_iff, ← exists_fieldFrom_iff, ← exists_forall₂_iff]
  constructor
  · rintro ⟨program, -, flat, flattened, fieldsFrom⟩
    exact ⟨flat, flattened, program.fields, fieldsFrom⟩
  · rintro ⟨flat, flattened, fields, fieldsFrom⟩
    exact ⟨⟨root, fields⟩, rfl, flat, flattened, fieldsFrom⟩

theorem Program.compile_eq_error_of_flatten
    (refused : (environment.catalog.flatten tag root).outcome = .error error) :
    (compile environment tag root).outcome = .error error := by
  rw [compile]
  exact Logged.outcome_bind_eq_error_iff.mpr (.inl refused)

/-- A record type with a name that is not valid or not unique fails for that, or because
a description breaks off. -/
theorem Program.aborted_or_schema_of_compile
    (misnamed : ¬ (environment.catalog.Described root ∧ environment.catalog.Named root)) :
    ((compile environment tag root).outcome = .error .aborted ∧
      ¬ environment.catalog.Described root) ∨
    ∃ reason type, (compile environment tag root).outcome = .error (.schema root reason) ∧
      environment.catalog.Expanded root type ∧
        reason.AppliesTo (environment.catalog.fields type) := by
  rw [← exists_flat_iff] at misnamed
  cases refused : (environment.catalog.flatten tag root).outcome with
  | ok flat => exact absurd ⟨flat, refused⟩ misnamed
  | error error =>
      rw [compile_eq_error_of_flatten refused]
      rcases eq_aborted_or_schema_of_flatten refused with
        ⟨rfl, breaksOff⟩ | ⟨reason, type, rfl, expanded, applies⟩
      · exact .inl ⟨rfl, breaksOff⟩
      · exact .inr ⟨reason, type, rfl, expanded, applies⟩

/-- Compilation fails with the error of flattening, or at the first flat field that
offends. -/
theorem Program.flatten_or_offends_of_compile
    (failed : (compile environment tag root).outcome = .error error) :
    (environment.catalog.flatten tag root).outcome = .error error ∨
      ∃ before field after reason,
        (environment.catalog.flatten tag root).outcome = .ok (before ++ field :: after) ∧
        (∀ earlier ∈ before, earlier.Sound environment.registry
          ((before ++ field :: after).map FlatField.path)) ∧
        field.Offends environment.registry ((before ++ field :: after).map FlatField.path) reason ∧
        error = .rejected root field.path reason := by
  rw [compile] at failed
  rcases Logged.outcome_bind_eq_error_iff.mp failed with refused | ⟨flat, flattened, behind⟩
  · exact .inl refused
  · rcases Logged.outcome_bind_eq_error_iff.mp behind with offending | ⟨fields, -, done⟩
    · rcases exists_offends_of_compileFields offending with
        ⟨before, field, after, reason, rfl, sound, offends, rfl⟩
      exact .inr ⟨before, field, after, reason, flattened, sound, offends, rfl⟩
    · simp only [Logged.outcome_bind, Logged.outcome_report] at done
      cases done

/-! ## References -/

variable {flat : List FlatField} {program : Program}

/-- The references of a compiled expression are positions of fields, one for each path
of the expression. -/
theorem refs_in_range
    (fieldsFrom : List.Forall₂ (FieldFrom registry (flat.map FlatField.path)) flat program.fields)
    {entry : ProgramField × CompiledExpression} (mem : entry ∈ program.expressions) :
    entry.2.refs.length = entry.2.expression.fieldPaths.length ∧
      ∀ index ∈ entry.2.refs, index < program.fields.length := by
  rcases exists_declared_of_compiled fieldsFrom mem with
    ⟨field, -, blocks, -, named, -, compiledFrom⟩
  constructor
  · rw [compiledFrom.expression]
    exact compiledFrom.refs.length_eq.symm
  · intro index inRefs
    rcases exists_mem_of_forall₂ compiledFrom.refs.flip inRefs with ⟨path, -, means⟩
    rcases List.getElem?_eq_some_iff.mp (Means.getElem? means) with ⟨bound, -⟩
    rwa [List.length_map, fieldsFrom.length_eq] at bound

/-- The slot of every field selector leads to a field of the program. -/
theorem exists_target_of_origin
    (fieldsFrom : List.Forall₂ (FieldFrom registry (flat.map FlatField.path)) flat program.fields)
    {entry : ProgramField × CompiledExpression} (mem : entry ∈ program.expressions)
    {path : String} {slot : Nat} (origin : .field path slot ∈ entry.2.expression.root.origins) :
    ∃ index target, entry.2.refs[slot]? = some index ∧ program.fields[index]? = some target ∧
      ∀ inst, program.readSlot inst entry.2 slot = target.read inst := by
  rcases exists_declared_of_compiled fieldsFrom mem with
    ⟨field, -, blocks, declared, named, inBlocks, compiledFrom⟩
  have wellFormed := (wellFormed_of_declared declared).each named inBlocks
  rw [compiledFrom.expression] at origin
  have at_slot := wellFormed.getElem?_fieldPaths origin
  rcases getElem?_of_forall₂ compiledFrom.refs at_slot with ⟨index, found, means⟩
  have bound := (refs_in_range fieldsFrom mem).2 index (List.mem_of_getElem? found)
  have target := List.getElem?_eq_getElem bound
  refine ⟨index, _, found, target, fun inst => ?_⟩
  simp only [Program.readSlot, found, Program.readAt, target]

/-- A record type compiles exactly if the types that are expanded for it are described,
with valid and unique names, and the annotations of its flat fields can be read and
hold registered paths only.  Where names are not valid or not unique, compilation fails
with an error about names, whatever the annotations are, unless a description breaks
off; with good names it fails at the first flat field that offends, with an error about
the annotation of that field.  A program has one field for each flat field, and its
expressions have one reference in range for each of their paths, so that every slot
leads to a field. -/
theorem compiles_iff_well_formed (environment : Environment) (tag : String) (root : RecordType) :
    ((∃ program, (Program.compile environment tag root).outcome = .ok program) ↔
      (environment.catalog.Described root ∧ environment.catalog.Named root) ∧
        ∀ flat, (environment.catalog.flatten tag root).outcome = .ok flat →
          ∀ field ∈ flat, field.Sound environment.registry (flat.map FlatField.path)) ∧
    (¬ (environment.catalog.Described root ∧ environment.catalog.Named root) →
      ((Program.compile environment tag root).outcome = .error .aborted ∧
        ¬ environment.catalog.Described root) ∨
      ∃ reason type, (Program.compile environment tag root).outcome = .error (.schema root reason) ∧
        environment.catalog.Expanded root type ∧
          reason.AppliesTo (environment.catalog.fields type)) ∧
    (environment.catalog.Described root ∧ environment.catalog.Named root →
      ∀ error, (Program.compile environment tag root).outcome = .error error →
        ∃ before field after reason,
          (environment.catalog.flatten tag root).outcome = .ok (before ++ field :: after) ∧
          (∀ earlier ∈ before, earlier.Sound environment.registry
            ((before ++ field :: after).map FlatField.path)) ∧
          field.Offends environment.registry ((before ++ field :: after).map FlatField.path)
            reason ∧
          error = .rejected root field.path reason) ∧
    ∀ program, (Program.compile environment tag root).outcome = .ok program →
      (∃ flat, (environment.catalog.flatten tag root).outcome = .ok flat ∧
        List.Forall₂ (FieldFrom environment.registry (flat.map FlatField.path)) flat
          program.fields) ∧
      ∀ entry ∈ program.expressions,
        entry.2.refs.length = entry.2.expression.fieldPaths.length ∧
        (∀ index ∈ entry.2.refs, index < program.fields.length) ∧
        ∀ path slot, .field path slot ∈ entry.2.expression.root.origins →
          ∃ index target, entry.2.refs[slot]? = some index ∧
            program.fields[index]? = some target ∧
              ∀ inst, program.readSlot inst entry.2 slot = target.read inst := by
  have flattens : (∃ flat, (environment.catalog.flatten tag root).outcome = .ok flat) ↔
      environment.catalog.Described root ∧ environment.catalog.Named root :=
    exists_flat_iff
  refine ⟨?_, Program.aborted_or_schema_of_compile, ?_, ?_⟩
  · rw [Program.exists_compile_iff, ← flattens]
    constructor
    · rintro ⟨flat, flattened, sound⟩
      refine ⟨⟨flat, flattened⟩, fun other flattened' => ?_⟩
      cases flattened.symm.trans flattened'
      exact sound
    · rintro ⟨⟨flat, flattened⟩, sound⟩
      exact ⟨flat, flattened, sound flat flattened⟩
  · intro wellNamed error failed
    rcases Program.flatten_or_offends_of_compile failed with refused | offending
    · rcases flattens.mpr wellNamed with ⟨flat, flattened⟩
      cases flattened.symm.trans refused
    · exact offending
  · intro program success
    rcases Program.outcome_compile_eq_ok_iff.mp success with ⟨-, flat, flattened, fieldsFrom⟩
    refine ⟨⟨flat, flattened, fieldsFrom⟩, fun entry mem => ?_⟩
    rcases refs_in_range fieldsFrom mem with ⟨count, inRange⟩
    exact ⟨count, inRange, fun path slot => exists_target_of_origin fieldsFrom mem⟩

/-- A field that shows another one, which its record does not have. -/
def unknownShown : FieldSpec :=
  (FieldSpec.leaf "x").tag "v" (.ofList ['(', 'y', ')', '$'])

/-- Notes with an unknown path in an annotation. -/
def danglingNotes : Environment where
  catalog := ⟨[(⟨"Note"⟩, .fields [unknownShown])]⟩
  registry := .empty

/-- The flat field of such notes. -/
def flatUnknown : FlatField :=
  (FieldChain.field unknownShown).flatField "v" [] (Instance.as? ⟨"Note"⟩)

omit [RegexLibrary] in
theorem danglingNotes_flattened :
    (danglingNotes.catalog.flatten "v" ⟨"Note"⟩).outcome = .ok [flatUnknown] := by
  have expands : Expands danglingNotes.catalog [⟨"Note"⟩] [unknownShown] _ :=
    .closed (by simp [unknownShown, FieldSpec.leaf, FieldSpec.tag]) .nil
  exact Catalog.flatten_eq_ok_iff.mpr ⟨_, rfl, ⟨by decide, by decide⟩, _, expands, rfl⟩

theorem flatUnknown_offends : flatUnknown.Offends .empty ["x"] (.unknownField "y") := by
  have read : Annotation.ofText .empty (.ofList ['(', 'y', ')', '$']) =
      .ok [⟨none, .ofTree "(y)$" (.selector (.field "y" 0) [])⟩] := by
    unfold Annotation.ofText
    rw [String.toList_ofList]
    rfl
  have listed : List.flatMap (fun named => named.expression.fieldPaths)
      [(⟨none, .ofTree "(y)$" (.selector (.field "y" 0) [])⟩ : NamedExpression)] =
        [] ++ "y" :: [] := rfl
  refine .unknown read listed (List.forall_mem_nil _) ?_
  rintro (inRecord | listed)
  · revert inRecord
    decide
  · revert listed
    decide

/-- Notes with a field under a name that is not a word. -/
def dottedNotes : Environment where
  catalog := ⟨[(⟨"Note"⟩, .fields [.leaf "a.b"])]⟩
  registry := .empty

end FieldRules

namespace FieldRules

attribute [local instance] RegexLibrary.empty

/-- Orders compile and their references are in range; a name with a point in it is
refused, and so is the annotation with an unknown path. -/
theorem orders_accepted_and_notes_refused :
    (∀ field ∈ flatOrders, field.Sound .empty (flatOrders.map FlatField.path)) ∧
    (∀ entry ∈ orderProgram.expressions, ∀ index ∈ entry.2.refs,
      index < orderProgram.fields.length) ∧
    (∃ reason, (Program.compile dottedNotes "v" ⟨"Note"⟩).outcome =
      .error (.schema ⟨"Note"⟩ reason)) ∧
    ∃ reason, (Program.compile danglingNotes "v" ⟨"Note"⟩).outcome =
      .error (.rejected ⟨"Note"⟩ "x" reason) := by
  rcases compiles_iff_well_formed orders "v" ⟨"Order"⟩ with ⟨accepted, -, -, compiled⟩
  rcases compiles_iff_well_formed dottedNotes "v" ⟨"Note"⟩ with ⟨-, misnamed, -, -⟩
  rcases compiles_iff_well_formed danglingNotes "v" ⟨"Note"⟩ with ⟨refused, -, offending, -⟩
  refine ⟨?_, ?_, ?_, ?_⟩
  · exact (accepted.mp ⟨_, orders_compile⟩).2 _ orders_flattened
  · intro entry mem
    exact ((compiled _ orders_compile).2 entry mem).2.1
  · have notWord : ¬ dottedNotes.catalog.Named ⟨"Note"⟩ := by
      intro named
      have word := (named _ (.inl rfl)).words (.leaf "a.b") List.mem_cons_self
      revert word
      decide
    rcases misnamed fun both => notWord both.2 with ⟨-, breaksOff⟩ | ⟨reason, -, failed, -⟩
    · refine absurd (fun type _ => ?_) breaksOff
      simp only [Catalog.describe, Catalog.find?, dottedNotes, List.lookup_cons, List.lookup_nil]
      split <;> simp
    · exact ⟨reason, failed⟩
  · have wellNamed := exists_flat_iff.mp ⟨_, danglingNotes_flattened⟩
    cases outcome : (Program.compile danglingNotes "v" ⟨"Note"⟩).outcome with
    | ok program =>
        have sound := (refused.mp ⟨program, outcome⟩).2 _ danglingNotes_flattened
        exact absurd (sound flatUnknown List.mem_cons_self) flatUnknown_offends.not_sound
    | error error =>
        rcases offending wellNamed error outcome with
          ⟨before, field, after, reason, flattened, -, -, rfl⟩
        have single := Except.ok.inj (flattened.symm.trans danglingNotes_flattened)
        rcases List.append_eq_singleton_iff.mp single with ⟨-, here⟩ | ⟨-, none⟩
        · cases here
          exact ⟨reason, rfl⟩
        · cases none

end FieldRules
