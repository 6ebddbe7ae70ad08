import FieldRules.Proofs.Program.Iteration

/-!
# The selectors that address an expression

A selector is taken as it stands or with one mark at its end left out.  So the
default expression of a field is addressed by the path of the field and by the path
with a mark behind it, an expression with a name by the path, a mark and the name,
which may again have a mark behind them.  No other text addresses anything.
-/

namespace FieldRules

/-- The texts that address an expression with a name, or without one, of the field
at a path. -/
inductive Addresses (path : String) : (name : Option String) → (selector : String) → Prop
  | path : Addresses path none path
  | pathMarked : Addresses path none (path ++ "@")
  | named (name : String) : Addresses path (some name) (path ++ "@" ++ name)
  | namedMarked (name : String) : Addresses path (some name) (path ++ "@" ++ name ++ "@")

/-- An expression is addressed by its selector, with a mark behind it or without. -/
theorem addresses_iff {path : String} {name : Option String} {selector : String} :
    Addresses path name selector ↔
      selector = selectorOf path name ∨ selector = selectorOf path name ++ "@" := by
  constructor
  · intro addresses
    cases addresses with
    | path => exact .inl rfl
    | pathMarked => exact .inr rfl
    | named name => exact .inl rfl
    | namedMarked name => exact .inr rfl
  · rintro (rfl | rfl)
    · cases name with
      | none => exact .path
      | some name => exact .named name
    · cases name with
      | none => exact .pathMarked
      | some name => exact .namedMarked name

namespace Program

/-- A text with a mark at its end is another text with a mark behind it. -/
theorem exists_eq_marked {selector : String} (last : selector.toList.getLast? = some '@') :
    ∃ rest, selector = rest ++ "@" := by
  rcases List.getLast?_eq_some_iff.mp last with ⟨rest, split⟩
  refine ⟨String.ofList rest, ?_⟩
  rw [← String.toList_inj, String.toList_append, String.toList_ofList]
  exact split

/-- Leaving the mark out takes nothing else away. -/
theorem eq_or_eq_stripMark_marked (selector : String) :
    selector = stripMark selector ∨ selector = stripMark selector ++ "@" := by
  by_cases last : selector.toList.getLast? = some '@'
  · right
    rcases exists_eq_marked last with ⟨rest, rfl⟩
    rw [stripMark_marked]
  · left
    exact (stripMark_eq_self last).symm

/-- An unmarked text is left over from itself and from the text with a mark. -/
theorem stripMark_eq_iff {selector unmarked : String} (kept : stripMark unmarked = unmarked) :
    stripMark selector = unmarked ↔ selector = unmarked ∨ selector = unmarked ++ "@" := by
  constructor
  · rintro rfl
    exact eq_or_eq_stripMark_marked selector
  · rintro (rfl | rfl)
    · exact kept
    · exact stripMark_marked unmarked

end Program

variable [RegexLibrary]

namespace Program

/-- Among different selectors, a text finds the expression whose selector it is when
the mark is left out. -/
theorem find?_eq_some_iff {program : Program} (distinct : program.selectors.Nodup)
    {selector : String} {entry : ProgramField × CompiledExpression} :
    program.find? selector = some entry ↔
      entry ∈ program.expressions ∧ stripMark selector = entry.2.selector := by
  constructor
  · intro found
    constructor
    · exact List.mem_of_find?_eq_some found
    · have same := List.find?_some found
      exact (of_decide_eq_true same).symm
  · rintro ⟨mem, stripped⟩
    rw [find?, stripped]
    exact find?_of_nodup_map distinct mem

/-- A text that finds no expression has the value nil, and this is reported. -/
theorem eval_of_find?_eq_none {program : Program} {selector : String}
    (missed : program.find? selector = none) (inst : Instance) :
    program.eval inst selector = ⟨[.noExpression program.type selector], .ok .nil⟩ := by
  rw [eval, missed]
  rfl

end Program

/-- A text addresses an expression of a compiled program if it is the path of its
field, for a default expression, or the path, a mark and the name of the expression,
a word; one mark more at the end makes no difference.  Then the text has the value
of exactly that expression.  A text that addresses no expression has the value nil. -/
theorem selectors_address_expressions {environment : Environment} {tag : String}
    {root : RecordType} {program : Program}
    (success : (Program.compile environment tag root).outcome = .ok program) (selector : String) :
    (∀ field compiled, program.find? selector = some (field, compiled) ↔
      (field, compiled) ∈ program.expressions ∧
        Addresses field.path compiled.name selector) ∧
    (∀ field compiled, (field, compiled) ∈ program.expressions →
      Text.isFieldPath field.path.toList = true ∧
        ∀ name ∈ compiled.name, Text.isWord name.toList = true) ∧
    ∀ inst : Instance,
      (∀ field compiled, (field, compiled) ∈ program.expressions →
        Addresses field.path compiled.name selector →
          program.eval inst selector = .ofExcept (program.evalAt inst field compiled)) ∧
      ((∀ field compiled, (field, compiled) ∈ program.expressions →
        ¬ Addresses field.path compiled.name selector) →
          program.eval inst selector = ⟨[.noExpression program.type selector], .ok .nil⟩) := by
  rcases Program.outcome_compile_eq_ok_iff.mp success with ⟨-, flat, flattened, fieldsFrom⟩
  have valid (field : FlatField) (inFlat : field ∈ flat) :
      Text.isFieldPath field.path.toList = true :=
    Catalog.isFieldPath_path flattened inFlat
  have distinct := Program.nodup_selectors_of_flatten flattened fieldsFrom
  have found (field : ProgramField) (compiled : CompiledExpression) :
      program.find? selector = some (field, compiled) ↔
        (field, compiled) ∈ program.expressions ∧
          Addresses field.path compiled.name selector := by
    rw [Program.find?_eq_some_iff distinct]
    apply and_congr_right
    intro mem
    rcases Program.selector_of_mem_expressions fieldsFrom valid mem with ⟨spelled, unmarked⟩
    rw [Program.stripMark_eq_iff unmarked, addresses_iff, spelled]
  constructor
  · exact found
  constructor
  · intro field compiled mem
    rcases Program.exists_source_of_mem_expressions fieldsFrom mem with
      ⟨source, inFlat, block, path, wellFormed, compiledFrom⟩
    constructor
    · rw [path]
      exact valid source inFlat
    · rw [compiledFrom.name]
      exact wellFormed.word
  · intro inst
    constructor
    · intro field compiled mem addresses
      exact Program.eval_of_find? ((found field compiled).mpr ⟨mem, addresses⟩)
    · intro unaddressed
      apply Program.eval_of_find?_eq_none
      rw [Option.eq_none_iff_forall_ne_some]
      rintro ⟨field, compiled⟩ addressed
      rcases (found field compiled).mp addressed with ⟨mem, addresses⟩
      exact unaddressed field compiled mem addresses

end FieldRules

namespace FieldRules

attribute [local instance] RegexLibrary.empty

/-- The expression beside the number of a note is addressed with a mark behind its
name, too; two marks behind the path address nothing. -/
theorem marked_name_of_note_addressed :
    (Program.compile notes "v" ⟨"Note"⟩).outcome = .ok noteProgram ∧
      (∃ field compiled, compiled.name = some "x" ∧
        noteProgram.find? "id@x@" = some (field, compiled)) ∧
      ∀ inst, noteProgram.eval inst "id@@" = ⟨[.noExpression ⟨"Note"⟩ "id@@"], .ok .nil⟩ := by
  constructor
  · exact notes_compile
  constructor
  · rcases selectors_address_expressions notes_compile "id@x@" with ⟨found, -, -⟩
    have beside : (_, ⟨some "x", "id@x", .ofTree "nil" .nil, []⟩) ∈ noteProgram.expressions :=
      List.mem_cons_of_mem _ List.mem_cons_self
    exact ⟨_, _, rfl, (found _ _).mpr ⟨beside, .namedMarked "x"⟩⟩
  · intro inst
    rcases selectors_address_expressions notes_compile "id@@" with ⟨found, -, evaluated⟩
    apply (evaluated inst).2
    intro field compiled mem addresses
    have missed : noteProgram.find? "id@@" = none := rfl
    rw [(found field compiled).mpr ⟨mem, addresses⟩] at missed
    cases missed

/-- Not every text that addresses an expression is its selector or the path of a
default expression with a mark. -/
theorem selector_with_needless_mark :
    ¬ ∀ selector field compiled, noteProgram.find? selector = some (field, compiled) →
      selector = selectorOf field.path compiled.name ∨
        compiled.name = none ∧ selector = field.path ++ "@" := by
  intro only
  have addressed : noteProgram.find? "id@x@" = some (_, _) := rfl
  rcases only _ _ _ addressed with same | ⟨unnamed, -⟩
  · exact absurd same (by decide)
  · cases unnamed

end FieldRules
