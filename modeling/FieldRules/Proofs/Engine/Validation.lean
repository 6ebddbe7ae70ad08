import FieldRules.Engine.Validator
import FieldRules.Proofs.Engine.Cache
import FieldRules.Proofs.Outcome

/-!
# Validation in both modes

Checking a rule adds at most one violation and asks for more unless a violation
has to end the validation.  So collecting goes through all rules and reports
those that fail, in the order of declaration, and stopping early reports the
first of them.

All this is about instances in which the expressions have values.  An expression
without one breaks off the validation that comes to it, and collecting comes to
expressions that stopping early never sees.
-/

namespace FieldRules

open Format (Fault)

variable [RegexLibrary]

/-! ## Failing rules -/

namespace Visit

/-- The visited expression is a rule, and its value is not truthy. -/
def fails (message : String) (visit : Visit) : Bool :=
  !visit.isMessage message && !(visit.eval.toOption.any Value.truthy)

/-- The violation that a failing rule makes: where it stands, with the text of the
message expression of its field, or else a general one. -/
def failure (message : String) (visit : Visit) : Violation where
  field := visit.field.path
  selector := visit.compiled.selector
  message :=
    violationMessage visit.field.path ((visit.evalNamed message).outcome.toOption.getD .nil)

end Visit

/-- The violations of the failing rules of a program, in the order of declaration. -/
def Program.failures (program : Program) (message : String) (inst : Instance) : List Violation :=
  ((program.visits inst).filter (Visit.fails message)).map (Visit.failure message)

/-- Every compiled expression has a value in an instance. -/
def Program.Evaluates (program : Program) (inst : Instance) : Prop :=
  ∀ entry ∈ program.expressions, ∃ value, program.evalAt inst entry.1 entry.2 = .ok value

/-- The violations that are reported in a mode. -/
def Mode.reported : Mode → List Violation → List Violation
  | .failFast, violations => violations.take 1
  | .collectAll, violations => violations

variable {program : Program} {inst : Instance} {message : String} {mode : Mode}

/-- Whatever a selector addresses has a value, since every expression has one. -/
theorem Program.Evaluates.exists_eval (evaluates : program.Evaluates inst) (selector : String) :
    ∃ value, (program.eval inst selector).outcome = .ok value := by
  rw [Program.eval]
  cases found : program.find? selector with
  | none => exact ⟨.nil, rfl⟩
  | some entry => exact evaluates entry (List.mem_of_find?_eq_some found)

/-! ## One rule after the other -/

/-- Checking one expression adds its violation if it is a failing rule, and goes on
unless that ends the validation. -/
theorem Visit.outcome_judge {visit : Visit} (evaluates : visit.program.Evaluates visit.inst)
    {value : Value} (evaluated : visit.eval = .ok value) (violations : List Violation) :
    (visit.judge message mode violations).outcome =
      .ok (if visit.fails message then
        (violations ++ [visit.failure message], decide (mode = .collectAll))
      else (violations, true)) := by
  obtain ⟨wording, worded⟩ :=
    evaluates.exists_eval (selectorOf visit.field.path (some message))
  have worded : (visit.evalNamed message).outcome = .ok wording := worded
  rw [Visit.judge, fails, evaluated]
  split_ifs with isMessage fails fails
  · simp [isMessage] at fails
  · rfl
  · have untrue : value.truthy = false := by
      simpa [isMessage, Except.toOption] using fails
    simp only [Logged.outcome_bind, Logged.outcome_ofExcept, Except.bind, untrue,
      Bool.false_eq_true, if_false, violation, worded, Logged.outcome_pure, Logged.outcome_report,
      failure, Except.toOption, Option.getD_some]
  · have holds : value.truthy = true := by
      simpa [isMessage, Except.toOption] using fails
    simp only [Logged.outcome_bind, Logged.outcome_ofExcept, Except.bind, holds, if_true,
      Logged.outcome_pure]

/-- Going through visits adds the violations that the mode reports to those before. -/
theorem Program.outcome_visitWhile_judge (evaluates : program.Evaluates inst)
    {visits : List Visit} (among : ∀ visit ∈ visits, visit ∈ program.visits inst)
    (violations : List Violation) :
    (visitWhile (Visit.judge message mode) visits violations).outcome =
      .ok (violations ++
        mode.reported ((visits.filter (Visit.fails message)).map (Visit.failure message))) := by
  induction visits generalizing violations with
  | nil => cases mode <;> simp [visitWhile, Mode.reported]
  | cons visit visits ih =>
      have ih := ih fun visit mem => among visit (List.mem_cons_of_mem _ mem)
      obtain ⟨entry, inExpressions, rfl⟩ := List.mem_map.mp (among visit List.mem_cons_self)
      obtain ⟨value, evaluated⟩ := evaluates entry inExpressions
      have judged := @Visit.outcome_judge _ message mode ⟨program, inst, entry.1, entry.2⟩ evaluates
        value evaluated violations
      rw [visitWhile, Logged.outcome_bind, judged, Except.bind]
      split_ifs with fails
      · rw [List.filter_cons_of_pos fails, List.map_cons]
        cases mode with
        | failFast => simp [Mode.reported]
        | collectAll =>
            have rest := ih (violations ++
              [Visit.failure message ⟨program, inst, entry.1, entry.2⟩])
            simpa [Mode.reported] using rest
      · rw [List.filter_cons_of_neg fails]
        exact ih violations

/-- Validating a program reports the failing rules that the mode asks for. -/
theorem Program.outcome_validate (evaluates : program.Evaluates inst) :
    (program.validate message mode inst).outcome =
      .ok ⟨mode.reported (program.failures message inst)⟩ := by
  rw [validate, range, Logged.outcome_bind,
    outcome_visitWhile_judge evaluates (fun _ mem => mem), Except.bind, List.nil_append]
  rfl

/-! ## Validators -/

variable {environment : Environment} {validator : Validator}

/-- An error of compilation is the outcome of the validation. -/
theorem Validator.outcome_run_of_error {error : CompileError}
    (failed : (validator.engine.compile environment inst.type).1.outcome = .error error) :
    (validator.run environment inst mode).1.outcome = .error (.compile error) := by
  simp only [run, withProgram, Logged.outcome_bind, Logged.mapError, failed]
  rfl

/-- Validating an instance is validating it with the program of its type. -/
theorem Validator.outcome_run_of_ok
    (compiled : (validator.engine.compile environment inst.type).1.outcome = .ok program)
    (evaluates : program.Evaluates inst) :
    (validator.run environment inst mode).1.outcome =
      .ok ⟨mode.reported (program.failures validator.message inst)⟩ := by
  simp only [run, withProgram, Logged.outcome_bind, Logged.mapError, compiled]
  exact congrArg (Except.mapError Failure.fault) (Program.outcome_validate evaluates)

/-- When a record type cannot be compiled, all validations fail with that error.
When it can, and its expressions have values in an instance, collecting reports
exactly the failing rules in the order of declaration, and stopping early
reports the first of them.  Checking is one of the two, as the validator says,
and both find the instance valid or none of them does. -/
theorem both_modes_report_failing_rules (environment : Environment) (validator : Validator)
    (inst : Instance) :
    (∀ error, (validator.engine.compile environment inst.type).1.outcome = .error error →
      (validator.validate environment inst).1.outcome = .error (.compile error) ∧
      (validator.validateAll environment inst).1.outcome = .error (.compile error) ∧
      (validator.check environment inst).1.outcome = .error (.compile error)) ∧
    (∀ program, (validator.engine.compile environment inst.type).1.outcome = .ok program →
      program.Evaluates inst →
        ∃ all first : Report,
          (validator.validateAll environment inst).1.outcome = .ok all ∧
          all.violations = program.failures validator.message inst ∧
          (validator.validate environment inst).1.outcome = .ok first ∧
          first.violations = all.violations.take 1 ∧ first.isOk = all.isOk) ∧
    validator.check environment inst =
      match validator.mode with
      | .failFast => validator.validate environment inst
      | .collectAll => validator.validateAll environment inst := by
  refine ⟨fun error failed => ?_, fun program compiled evaluates => ?_, ?_⟩
  · exact ⟨Validator.outcome_run_of_error failed, Validator.outcome_run_of_error failed,
      Validator.outcome_run_of_error failed⟩
  · refine ⟨_, _, Validator.outcome_run_of_ok compiled evaluates, rfl,
      Validator.outcome_run_of_ok compiled evaluates, rfl, ?_⟩
    simp only [Report.isOk, Mode.reported]
    cases program.failures validator.message inst <;> rfl
  · rw [Validator.check]
    cases validator.mode <;> rfl

end FieldRules

namespace FieldRules

open Format (Fault)

attribute [local instance] RegexLibrary.empty

/-- A rule that fails, one that holds, one that fails again, and the text for
their violations. -/
theorem failing_rules_of_field_reported :
    let type : RecordType := ⟨"Order"⟩
    let rule (name : String) (root : Node) : CompiledExpression :=
      ⟨some name, selectorOf "id" (some name), ⟨"", root⟩, []⟩
    let program : Program := ⟨type, [⟨"id", fun inst => inst.datum "id",
      [rule "a" .nil, rule "b" .current, rule "c" (.bool false), rule "message" (.text "no")]⟩]⟩
    let inst : Instance := ⟨type, [("id", .plain (.bool true))]⟩
    let validator : Validator :=
      ⟨⟨"vd", Cache.empty.insert RecordType.hash type program⟩, "message", .failFast⟩
    (validator.engine.compile ⟨.empty, .empty⟩ type).1.outcome = .ok program ∧
      program.Evaluates inst ∧
      ∃ all first : Report,
        (validator.validateAll ⟨.empty, .empty⟩ inst).1.outcome = .ok all ∧
        all.violations = [⟨"id", "id@a", "no"⟩, ⟨"id", "id@c", "no"⟩] ∧
        (validator.validate ⟨.empty, .empty⟩ inst).1.outcome = .ok first ∧
        first.violations = [⟨"id", "id@a", "no"⟩] := by
  intro type rule program inst validator
  have missing : (Cache.empty : Cache Program).find? RecordType.hash type = none :=
    Cache.find?_withBuckets _ _
  have found : validator.engine.cache.find? RecordType.hash type = some program :=
    (Cache.WellFormed.empty.find?_insert missing program type).trans (if_pos rfl)
  have compiled : (validator.engine.compile ⟨.empty, .empty⟩ type).1.outcome = .ok program := by
    rw [Engine.compile, Cache.getOrCompile_of_find?_eq_some found]
    rfl
  have evaluates : program.Evaluates inst := by
    simp only [Program.Evaluates, Program.expressions, program, List.flatMap_cons,
      List.flatMap_nil, List.map_cons, List.map_nil, List.append_nil, List.forall_mem_cons]
    exact ⟨⟨_, rfl⟩, ⟨_, rfl⟩, ⟨_, rfl⟩, ⟨_, rfl⟩, List.forall_mem_nil _⟩
  obtain ⟨all, first, allReported, failing, firstReported, head, -⟩ :=
    (both_modes_report_failing_rules ⟨.empty, .empty⟩ validator inst).2.1 program compiled evaluates
  have failures : program.failures "message" inst =
      [⟨"id", "id@a", "no"⟩, ⟨"id", "id@c", "no"⟩] := by decide
  have failing : all.violations = [⟨"id", "id@a", "no"⟩, ⟨"id", "id@c", "no"⟩] :=
    failing.trans failures
  exact ⟨compiled, evaluates, all, first, allReported, failing, firstReported,
    by rw [head, failing]; rfl⟩

/-- Behind a failing rule stands one without a value: stopping early reports the
failing rule, and collecting reports nothing at all. -/
theorem collecting_breaks_off_behind_violation :
    let type : RecordType := ⟨"Order"⟩
    let rule (name : String) (root : Node) : CompiledExpression :=
      ⟨some name, selectorOf "id" (some name), ⟨"", root⟩, []⟩
    let program : Program := ⟨type, [⟨"id", fun _ => .nil,
      [rule "a" (.bool false),
        rule "b" (.call false .sprintf [.text "%.70000f", .number 1])]⟩]⟩
    (program.validate "message" .failFast ⟨type, []⟩).outcome =
        .ok ⟨[⟨"id", "id@a", "invalid parameter: id"⟩]⟩ ∧
      (program.validate "message" .collectAll ⟨type, []⟩).outcome =
        .error .precisionOutOfRange :=
  ⟨rfl, rfl⟩

end FieldRules
