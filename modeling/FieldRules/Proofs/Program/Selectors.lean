import FieldRules.Proofs.Program.Compile
import FieldRules.Proofs.Table
import FieldRules.Proofs.Text.Run

/-!
# Selectors address compiled expressions

Different expressions of a program have different selectors, and a selector does
not end with `@`.  So every compiled expression is found by its own selector.
-/

namespace FieldRules

open FieldRules.Text

/-! ## Selectors of fields -/

/-- What a selector adds to the path of its field. -/
def markedName : Option String → List Char
  | none => []
  | some name => '@' :: name.toList

theorem toList_selectorOf (path : String) (name : Option String) :
    (selectorOf path name).toList = path.toList ++ markedName name := by
  cases name <;> simp [selectorOf, markedName]

theorem markedName_head (name : Option String) :
    ∀ c ∈ (markedName name).head?, decide (c ≠ '@') = false := by
  cases name with
  | none => simp [markedName]
  | some name =>
      rintro c ⟨⟩
      rfl

theorem markedName_injective : Function.Injective markedName := by
  rintro (_ | name) (_ | other) same
  · rfl
  · cases same
  · cases same
  · exact congrArg some (String.toList_inj.mp (List.cons.inj same).2)

theorem no_mark_of_isFieldPath {path : List Char} (valid : isFieldPath path = true) :
    ∀ c ∈ path, decide (c ≠ '@') = true := by
  intro c mem
  refine decide_eq_true ?_
  rintro rfl
  rcases isWordChar_of_isFieldPath valid mem with word | point
  · cases word
  · cases point

/-- A selector determines the path and the name. -/
theorem selectorOf_injective {path other : String} (valid : isFieldPath path.toList = true)
    (otherValid : isFieldPath other.toList = true) {name otherName : Option String}
    (same : selectorOf path name = selectorOf other otherName) :
    path = other ∧ name = otherName := by
  have same : path.toList ++ markedName name = other.toList ++ markedName otherName := by
    rw [← toList_selectorOf, ← toList_selectorOf, same]
  have run := no_mark_of_isFieldPath valid
  have otherRun := no_mark_of_isFieldPath otherValid
  constructor
  · rw [← String.toList_inj, ← takeWhile_run run (markedName_head name), same,
      takeWhile_run otherRun (markedName_head otherName)]
  · apply markedName_injective
    rw [← dropWhile_run run (markedName_head name), same,
      dropWhile_run otherRun (markedName_head otherName)]

theorem stripMark_eq_self {selector : String} (last : selector.toList.getLast? ≠ some '@') :
    Program.stripMark selector = selector := by
  rw [Program.stripMark]
  split
  · rename_i rest reversed
    rw [← List.head?_reverse, reversed] at last
    exact absurd rfl last
  · rfl

/-- Selectors end with a character of a word or a point. -/
theorem stripMark_selectorOf {path : String} (valid : isFieldPath path.toList = true)
    {name : Option String} (words : ∀ word ∈ name, isWord word.toList = true) :
    Program.stripMark (selectorOf path name) = selectorOf path name := by
  apply stripMark_eq_self
  rw [toList_selectorOf]
  cases name with
  | none =>
      intro last
      rw [markedName, List.append_nil] at last
      exact absurd rfl (of_decide_eq_true
        (no_mark_of_isFieldPath valid '@' (List.mem_of_getLast? last)))
  | some name =>
      have word := words name rfl
      have split : path.toList ++ markedName (some name) = path.toList ++ ['@'] ++ name.toList := by
        simp [markedName]
      rw [split, List.getLast?_append]
      cases last : name.toList.getLast? with
      | none =>
          rw [List.getLast?_eq_none_iff.mp last] at word
          cases word
      | some c =>
          rintro ⟨⟩
          have mark := isWordChar_of_isWord word '@' (List.mem_of_getLast? last)
          cases mark

variable [RegexLibrary]

/-! ## Selectors of programs -/

section

variable {registry : Registry} {paths : List String}

theorem wellFormed_of_declared {field : FlatField} {named : Annotation}
    (read : field.declared registry = .ok named) : named.WellFormed := by
  rw [FlatField.declared] at read
  split at read
  · cases read
    exact .nil
  · exact Annotation.wellFormed_of_ofText read

/-- The selectors of the expressions of a field. -/
def ProgramField.selectors (field : ProgramField) : List String :=
  field.expressions.map (·.selector)

theorem selectors_of_aligned {field : FlatField} {named : Annotation}
    {expressions : List CompiledExpression}
    (aligned : List.Forall₂ (CompiledFrom paths field) named expressions) :
    expressions.map (·.selector) = named.map fun named => selectorOf field.path named.name := by
  induction aligned with
  | nil => rfl
  | cons compiled _ ih => rw [List.map_cons, List.map_cons, compiled.selector, ih]

theorem FieldFrom.selectors_eq {field : FlatField} {programField : ProgramField}
    (fieldFrom : FieldFrom registry paths field programField) :
    ∃ named : Annotation, named.WellFormed ∧
      programField.selectors = named.map fun named => selectorOf field.path named.name := by
  obtain ⟨-, -, named, read, aligned⟩ := fieldFrom
  exact ⟨named, wellFormed_of_declared read, selectors_of_aligned aligned⟩

/-- A selector of a compiled field consists of the path of the field and a name. -/
theorem exists_flat_of_mem_selectors {flat : List FlatField} {fields : List ProgramField}
    (fieldsFrom : List.Forall₂ (FieldFrom registry paths) flat fields) {selector : String}
    (mem : selector ∈ fields.flatMap ProgramField.selectors) :
    ∃ field ∈ flat, ∃ name, selector = selectorOf field.path name := by
  obtain ⟨programField, inFields, inSelectors⟩ := List.mem_flatMap.mp mem
  obtain ⟨field, inFlat, fieldFrom⟩ := exists_mem_of_forall₂ fieldsFrom.flip inFields
  obtain ⟨named, -, selectors⟩ := fieldFrom.selectors_eq
  rw [selectors] at inSelectors
  obtain ⟨expression, -, rfl⟩ := List.mem_map.mp inSelectors
  exact ⟨field, inFlat, expression.name, rfl⟩

/-- Different expressions of compiled fields have different selectors. -/
theorem nodup_selectors {flat : List FlatField} {fields : List ProgramField}
    (fieldsFrom : List.Forall₂ (FieldFrom registry paths) flat fields)
    (valid : ∀ field ∈ flat, isFieldPath field.path.toList = true)
    (distinct : (flat.map FlatField.path).Nodup) :
    (fields.flatMap ProgramField.selectors).Nodup := by
  induction fieldsFrom with
  | nil => exact .nil
  | @cons field programField flat fields first rest ih =>
      obtain ⟨fieldValid, valid⟩ := List.forall_mem_cons.mp valid
      obtain ⟨fresh, distinct⟩ := List.nodup_cons.mp distinct
      obtain ⟨named, wellFormed, selectors⟩ := first.selectors_eq
      rw [List.flatMap_cons, selectors, List.nodup_append]
      refine ⟨?_, ih valid distinct, fun selector inFirst other inRest same => ?_⟩
      · have names : named.map (fun named => selectorOf field.path named.name) =
            (named.map NamedExpression.name).map (selectorOf field.path) := by
          rw [List.map_map]
          rfl
        rw [names]
        exact List.Nodup.map (fun _ _ same => (selectorOf_injective fieldValid fieldValid same).2)
          wellFormed.distinct
      · obtain ⟨expression, -, rfl⟩ := List.mem_map.mp inFirst
        obtain ⟨later, inFlat, name, rfl⟩ := exists_flat_of_mem_selectors rest inRest
        have path := (selectorOf_injective fieldValid (valid later inFlat) same).1
        exact fresh (path ▸ List.mem_map_of_mem inFlat)

end

theorem Program.selectors_eq (program : Program) :
    program.selectors = program.fields.flatMap ProgramField.selectors := by
  rw [selectors, expressions, List.map_flatMap]
  exact List.flatMap_congr fun field _ => by rw [List.map_map]; rfl

theorem Program.mem_expressions {program : Program} {field : ProgramField}
    (inFields : field ∈ program.fields) {compiled : CompiledExpression}
    (inField : compiled ∈ field.expressions) : (field, compiled) ∈ program.expressions :=
  List.mem_flatMap.mpr ⟨field, inFields, List.mem_map_of_mem inField⟩

/-- A compiled expression is found by its selector. -/
theorem Program.find?_selector {program : Program} (distinct : program.selectors.Nodup)
    {entry : ProgramField × CompiledExpression} (mem : entry ∈ program.expressions)
    (unmarked : stripMark entry.2.selector = entry.2.selector) :
    program.find? entry.2.selector = some entry := by
  rw [find?, unmarked]
  exact find?_of_nodup_map distinct mem

end FieldRules
