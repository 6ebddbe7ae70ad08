import FieldRules.Proofs.Program.NameResolution

/-!
# Going through a program and addressing its expressions

Going through a program shows a visitor the compiled expressions in the order of
the selectors, up to the first after which the visitor does not ask for more.  A
visit gives the value that the selector of the visited expression leads to, since no
other expression has this selector, and since it does not end with the mark that is
left out of a selector.
-/

namespace FieldRules

open Format (Fault)

variable [RegexLibrary]

/-! ## Visits that are made -/

section

variable {ε σ : Type} {visitor : Visit → σ → Logged ε (σ × Bool)} {visit : Visit}
  {visits made : List Visit} {state next : σ} {first : List Event} {result : Logged ε σ}

/-- A visitor makes visits one after the other and asks for more after each of them,
with its state and the events afterwards. -/
inductive GoesOn (visitor : Visit → σ → Logged ε (σ × Bool)) :
    List Visit → σ → σ → List Event → Prop
  | nil (state : σ) : GoesOn visitor [] state state []
  | cons {visit : Visit} {visits : List Visit} {state next final : σ} {first rest : List Event}
      (shown : visitor visit state = ⟨first, .ok (next, true)⟩)
      (more : GoesOn visitor visits next final rest) :
      GoesOn visitor (visit :: visits) state final (first ++ rest)

/-- The visits that a visitor makes out of a list, and their result: it makes all of
them, or those up to the first after which it does not ask for more, or up to one
that fails. -/
inductive Makes (visitor : Visit → σ → Logged ε (σ × Bool)) (visits : List Visit) (state : σ) :
    (made : List Visit) → Logged ε σ → Prop
  | all {final : σ} {events : List Event} (goesOn : GoesOn visitor visits state final events) :
      Makes visitor visits state visits ⟨events, .ok final⟩
  | stopped {before after : List Visit} {visit : Visit} {middle final : σ}
      {events last : List Event} (split : visits = before ++ visit :: after)
      (goesOn : GoesOn visitor before state middle events)
      (stops : visitor visit middle = ⟨last, .ok (final, false)⟩) :
      Makes visitor visits state (before ++ [visit]) ⟨events ++ last, .ok final⟩
  | failed {before after : List Visit} {visit : Visit} {middle : σ} {error : ε}
      {events last : List Event} (split : visits = before ++ visit :: after)
      (goesOn : GoesOn visitor before state middle events)
      (fails : visitor visit middle = ⟨last, .error error⟩) :
      Makes visitor visits state (before ++ [visit]) ⟨events ++ last, .error error⟩

/-- The visits that are made are the first ones. -/
theorem Makes.isPrefix (makes : Makes visitor visits state made result) : made <+: visits := by
  cases makes with
  | all => exact List.prefix_rfl
  | @stopped before after visit _ _ _ _ split =>
      rw [split, List.append_cons before visit after]
      exact List.prefix_append (before ++ [visit]) after
  | @failed before after visit _ _ _ _ split =>
      rw [split, List.append_cons before visit after]
      exact List.prefix_append (before ++ [visit]) after

/-- A visitor that asks for more goes on with the other visits. -/
theorem Makes.cons (shown : visitor visit state = ⟨first, .ok (next, true)⟩)
    (makes : Makes visitor visits next made result) :
    Makes visitor (visit :: visits) state (visit :: made)
      ⟨first ++ result.events, result.outcome⟩ := by
  cases makes with
  | all goesOn => exact .all (.cons shown goesOn)
  | stopped split goesOn stops =>
      rw [← List.append_assoc]
      exact .stopped (congrArg (List.cons visit) split) (.cons shown goesOn) stops
  | failed split goesOn fails =>
      rw [← List.append_assoc]
      exact .failed (congrArg (List.cons visit) split) (.cons shown goesOn) fails

theorem Program.visitWhile_cons (visitor : Visit → σ → Logged ε (σ × Bool)) (visit : Visit)
    (visits : List Visit) (state : σ) :
    visitWhile visitor (visit :: visits) state =
      match visitor visit state with
      | ⟨events, .error error⟩ => ⟨events, .error error⟩
      | ⟨events, .ok (next, more)⟩ =>
          let rest := if more then visitWhile visitor visits next else pure next
          ⟨events ++ rest.events, rest.outcome⟩ := by
  rw [visitWhile]
  cases visitor visit state with
  | mk events outcome => cases outcome <;> rfl

/-- Visits are made up to the first after which the visitor does not ask for more. -/
theorem Program.exists_makes (visitor : Visit → σ → Logged ε (σ × Bool)) (visits : List Visit)
    (state : σ) : ∃ made, Makes visitor visits state made (visitWhile visitor visits state) := by
  induction visits generalizing state with
  | nil => exact ⟨[], .all (.nil state)⟩
  | cons visit visits ih =>
      have split : visit :: visits = [] ++ visit :: visits := rfl
      rw [visitWhile_cons]
      cases shown : visitor visit state with
      | mk events outcome =>
          cases outcome with
          | error error => exact ⟨_, .failed split (.nil state) shown⟩
          | ok answer =>
              rcases answer with ⟨next, more⟩
              cases more with
              | true =>
                  rcases ih next with ⟨made, makes⟩
                  exact ⟨visit :: made, makes.cons shown⟩
              | false =>
                  simp only [Bool.false_eq_true, if_false, Logged.events_pure,
                    Logged.outcome_pure, List.append_nil]
                  exact ⟨_, .stopped split (.nil state) shown⟩

end

/-! ## Visits and selectors -/

section

variable {registry : Registry} {flat : List FlatField} {program : Program} {inst : Instance}

omit [RegexLibrary] in
/-- Only the mark at the end of a selector is left out. -/
theorem Program.stripMark_marked (selector : String) : stripMark (selector ++ "@") = selector := by
  have reversed : (selector ++ "@").toList.reverse = '@' :: selector.toList.reverse := by simp
  rw [stripMark, reversed]
  simp

/-- A compiled expression stands for a well-formed one of a flat field. -/
theorem Program.exists_source_of_mem_expressions
    (fieldsFrom : List.Forall₂ (FieldFrom registry (flat.map FlatField.path)) flat program.fields)
    {entry : ProgramField × CompiledExpression} (mem : entry ∈ program.expressions) :
    ∃ field ∈ flat, ∃ source : NamedExpression, entry.1.path = field.path ∧ source.WellFormed ∧
      CompiledFrom (flat.map FlatField.path) field source entry.2 := by
  rcases List.mem_flatMap.mp mem with ⟨programField, inFields, inField⟩
  rcases List.mem_map.mp inField with ⟨compiled, inExpressions, rfl⟩
  rcases exists_mem_of_forall₂ fieldsFrom.flip inFields with
    ⟨field, inFlat, path, -, blocks, declared, aligned⟩
  rcases exists_mem_of_forall₂ aligned.flip inExpressions with ⟨source, inBlocks, compiledFrom⟩
  have wellFormed := (wellFormed_of_declared declared).each source inBlocks
  exact ⟨field, inFlat, source, path, wellFormed, compiledFrom⟩

/-- A compiled expression has the selector of its field and its name, which does not
end with a mark. -/
theorem Program.selector_of_mem_expressions
    (fieldsFrom : List.Forall₂ (FieldFrom registry (flat.map FlatField.path)) flat program.fields)
    (valid : ∀ field ∈ flat, Text.isFieldPath field.path.toList = true)
    {entry : ProgramField × CompiledExpression} (mem : entry ∈ program.expressions) :
    entry.2.selector = selectorOf entry.1.path entry.2.name ∧
      stripMark entry.2.selector = entry.2.selector := by
  rcases exists_source_of_mem_expressions fieldsFrom mem with
    ⟨field, inFlat, source, path, wellFormed, compiledFrom⟩
  constructor
  · rw [compiledFrom.selector, compiledFrom.name, path]
  · rw [compiledFrom.selector]
    exact stripMark_selectorOf (valid field inFlat) wellFormed.word

theorem Program.selectors_visits (program : Program) (inst : Instance) :
    (program.visits inst).map (·.compiled.selector) = program.selectors := by
  rw [visits, selectors, List.map_map]
  rfl

/-- The selector of a visited expression leads to what the visit gives. -/
theorem Program.eval_of_find? {selector : String} {entry : ProgramField × CompiledExpression}
    (found : program.find? selector = some entry) :
    program.eval inst selector = .ofExcept (Visit.eval ⟨program, inst, entry.1, entry.2⟩) := by
  rw [eval, found]
  rfl

/-- Collecting the values of visits by their selectors is evaluating the selectors one
after the other. -/
theorem Program.outcome_visitWhile_collect {visits : List Visit}
    (addressed : ∀ visit ∈ visits,
      (program.eval inst visit.compiled.selector).outcome = visit.eval)
    (values : List (String × Value)) :
    (visitWhile (fun visit values => do
      let value ← Logged.ofExcept visit.eval
      pure (values ++ [(visit.compiled.selector, value)], true)) visits values).outcome =
      ((visits.map (·.compiled.selector)).mapM fun selector =>
        (program.eval inst selector).outcome.map (selector, ·)).map (values ++ ·) := by
  induction visits generalizing values with
  | nil => exact congrArg Except.ok (List.append_nil values).symm
  | cons visit visits ih =>
      rcases List.forall_mem_cons.mp addressed with ⟨here, later⟩
      rw [List.map_cons, List.mapM_cons, here, visitWhile]
      cases visit.eval with
      | error fault => rfl
      | ok value =>
          refine (ih later (values ++ [(visit.compiled.selector, value)])).trans ?_
          cases (visits.map (·.compiled.selector)).mapM fun selector =>
              (program.eval inst selector).outcome.map (selector, ·) with
          | error fault => rfl
          | ok rest => exact congrArg Except.ok (List.append_assoc _ _ _)

end

/-- Going through a program and addressing its expressions agree.  Its selectors are
different, and they are those of the visits, in order.  Every visitor makes the
first of these visits, up to one after which it does not ask for more, or all of
them.  Each visit gives the value that the selector of its expression leads to; so
does the path with a mark behind it, if the expression is the default one of its
field.  Evaluating all expressions is evaluating all selectors in order. -/
theorem iteration_agrees_with_selectors {environment : Environment} {tag : String}
    {root : RecordType} {program : Program}
    (success : (Program.compile environment tag root).outcome = .ok program) (inst : Instance) :
    program.selectors.Nodup ∧
    (program.visits inst).map (·.compiled.selector) = program.selectors ∧
    (∀ (ε σ : Type) (visitor : Visit → σ → Logged ε (σ × Bool)) (state : σ), ∃ made,
      made <+: program.visits inst ∧
        Makes visitor (program.visits inst) state made (program.range inst visitor state)) ∧
    (∀ visit ∈ program.visits inst,
      program.eval inst visit.compiled.selector = .ofExcept visit.eval ∧
        (visit.compiled.name = none →
          program.eval inst (visit.field.path ++ "@") = .ofExcept visit.eval)) ∧
    (program.evalAll inst).outcome = program.selectors.mapM fun selector =>
      (program.eval inst selector).outcome.map (selector, ·) := by
  rcases Program.outcome_compile_eq_ok_iff.mp success with ⟨-, flat, flattened, fieldsFrom⟩
  have valid (field : FlatField) (inFlat : field ∈ flat) :
      Text.isFieldPath field.path.toList = true :=
    Catalog.isFieldPath_path flattened inFlat
  have distinct := Program.nodup_selectors_of_flatten flattened fieldsFrom
  have addressed : ∀ visit ∈ program.visits inst,
      program.eval inst visit.compiled.selector = .ofExcept visit.eval ∧
        (visit.compiled.name = none →
          program.eval inst (visit.field.path ++ "@") = .ofExcept visit.eval) := by
    intro visit inVisits
    rcases List.mem_map.mp inVisits with ⟨entry, mem, rfl⟩
    rcases Program.selector_of_mem_expressions fieldsFrom valid mem with ⟨spelled, unmarked⟩
    have found := Program.find?_selector distinct mem unmarked
    constructor
    · exact Program.eval_of_find? found
    · intro isDefault
      have path : entry.1.path = entry.2.selector := by
        rw [spelled, isDefault]
        rfl
      have marked : program.find? (entry.1.path ++ "@") = some entry := by
        rw [Program.find?, Program.stripMark_marked, path, ← unmarked]
        exact found
      exact Program.eval_of_find? marked
  refine ⟨distinct, program.selectors_visits inst, ?_, addressed, ?_⟩
  · intro ε σ visitor state
    rcases Program.exists_makes visitor (program.visits inst) state with ⟨made, makes⟩
    exact ⟨made, makes.isPrefix, makes⟩
  · have outcomes (visit : Visit) (inVisits : visit ∈ program.visits inst) :
        (program.eval inst visit.compiled.selector).outcome = visit.eval :=
      congrArg Logged.outcome (addressed visit inVisits).1
    rw [Program.evalAll, Program.range, Program.outcome_visitWhile_collect outcomes,
      program.selectors_visits inst]
    cases program.selectors.mapM fun selector =>
        (program.eval inst selector).outcome.map (selector, ·) with
    | error fault => rfl
    | ok values => rfl

/-- The number of a note, which it shows, with an expression beside it that is nil. -/
def noteNumber : FieldSpec :=
  (FieldSpec.leaf "id").tag "v" "{@:$}{x:nil}"

/-- Notes with numbers. -/
def notes : Environment where
  catalog := ⟨[(⟨"Note"⟩, .fields [noteNumber])]⟩
  registry := .empty

/-- The program of notes. -/
def noteProgram : Program where
  type := ⟨"Note"⟩
  fields := [⟨"id", ((FieldChain.field noteNumber).flatField "v" [] (Instance.as? ⟨"Note"⟩)).read,
    [⟨none, "id", .ofTree "$" .current, []⟩, ⟨some "x", "id@x", .ofTree "nil" .nil, []⟩]⟩]

theorem notes_compile : (Program.compile notes "v" ⟨"Note"⟩).outcome = .ok noteProgram := by
  let source := String.ofList ['{', '@', ':', '$', '}', '{', 'x', ':', 'n', 'i', 'l', '}']
  have read : Annotation.ofText .empty source =
      .ok [⟨none, .ofTree "$" .current⟩, ⟨some "x", .ofTree "nil" .nil⟩] := by
    unfold Annotation.ofText
    rw [String.toList_ofList]
    rfl
  have expands : Expands notes.catalog [⟨"Note"⟩] [noteNumber] _ :=
    .closed (by simp [noteNumber, FieldSpec.leaf, FieldSpec.tag]) .nil
  have flattened : (notes.catalog.flatten "v" ⟨"Note"⟩).outcome =
      .ok [(FieldChain.field noteNumber).flatField "v" [] (Instance.as? ⟨"Note"⟩)] :=
    Catalog.flatten_eq_ok_iff.mpr ⟨_, rfl, ⟨by decide, by decide⟩, _, expands, rfl⟩
  apply Program.outcome_compile_eq_ok_iff.mpr
  refine ⟨rfl, _, flattened, .cons ⟨rfl, rfl, _, read, ?_⟩ .nil⟩
  exact .cons ⟨rfl, rfl, rfl, .nil⟩ (.cons ⟨rfl, rfl, rfl, .nil⟩ .nil)

end FieldRules

namespace FieldRules

open Format (Fault)

attribute [local instance] RegexLibrary.empty

/-- The number of a note stands under its path, with a mark or without one, and the
expression beside it under its name; a visitor that stops at once sees the first. -/
theorem selectors_of_note :
    let note : Instance := ⟨⟨"Note"⟩, [("id", .plain (.text "7"))]⟩
    let visitor (visit : Visit) (seen : List String) : Logged Fault (List String × Bool) :=
      pure (seen ++ [visit.compiled.selector], false)
    (Program.compile notes "v" ⟨"Note"⟩).outcome = .ok noteProgram ∧
      noteProgram.selectors = ["id", "id@x"] ∧ noteProgram.selectors.Nodup ∧
      (noteProgram.range note visitor []).outcome = .ok ["id"] ∧
      (∃ made, made <+: noteProgram.visits note ∧
        Makes visitor (noteProgram.visits note) [] made (noteProgram.range note visitor [])) ∧
      noteProgram.eval note "id@" = .ofExcept (.ok (.text "7")) ∧
      (noteProgram.evalAll note).outcome = .ok [("id", .text "7"), ("id@x", .nil)] := by
  intro note visitor
  rcases iteration_agrees_with_selectors notes_compile note with
    ⟨distinct, -, makes, addressed, collected⟩
  refine ⟨notes_compile, rfl, distinct, rfl, makes _ _ visitor [], ?_, collected.trans rfl⟩
  exact (addressed _ (List.mem_cons_self)).2 rfl

end FieldRules
