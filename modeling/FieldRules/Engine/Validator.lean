import FieldRules.Engine.Basic

/-!
# Validation

Every expression of a program is a rule, except the one that words the message
of its field; a rule holds when its value is truthy.  Rules are checked in the
order of declaration, up to the first that fails or all of them.
-/

namespace FieldRules

open Format (Fault)

variable [RegexLibrary]

/-- A rule that does not hold. -/
structure Violation where
  field : String
  selector : String
  message : String
  deriving Repr, DecidableEq

/-- The result of a validation: the rules that do not hold. -/
structure Report where
  violations : List Violation
  deriving Repr, DecidableEq

namespace Report

/-- Whether all rules hold. -/
def isOk (report : Report) : Bool :=
  report.violations.isEmpty

/-- The first rule that does not hold. -/
def first? (report : Report) : Option Violation :=
  report.violations.head?

end Report

/-! ## Rules -/

/-- The message for a field with a rule that does not hold: the text of its
message expression, or else a general one. -/
def violationMessage (path : String) : Value → String
  | .text message => message
  | _ => "invalid parameter: " ++ path

namespace Visit

/-- The violation that a rule reports when it does not hold. -/
def violation (message : String) (visit : Visit) : Logged Fault Violation := do
  let value ← visit.evalNamed message
  pure ⟨visit.field.path, visit.compiled.selector, violationMessage visit.field.path value⟩

/-- Whether the visited expression words messages. -/
def isMessage (message : String) (visit : Visit) : Bool :=
  visit.compiled.name = some message

/-- Check one expression: add a violation to those before if it is a rule that
does not hold, and say whether to go on. -/
def judge (message : String) (mode : Mode) (visit : Visit) (violations : List Violation) :
    Logged Fault (List Violation × Bool) :=
  if visit.isMessage message then pure (violations, true)
  else do
    let value ← Logged.ofExcept visit.eval
    if value.truthy then pure (violations, true)
    else do
      let violation ← visit.violation message
      .report (.ruleFailed violation.field violation.selector)
      pure (violations ++ [violation], mode = .collectAll)

end Visit

/-- Check the rules of a program in an instance. -/
def Program.validate (program : Program) (message : String) (mode : Mode) (inst : Instance) :
    Logged Fault Report := do
  let violations ← program.range inst (Visit.judge message mode) []
  pure ⟨violations⟩

/-! ## Validators -/

/-- An engine with the name of message expressions and a mode. -/
structure Validator where
  engine : Engine
  message : String
  mode : Mode

namespace Validator

/-- A validator with the default message name and mode. -/
def ofEngine (engine : Engine) : Validator :=
  ⟨engine, defaultMessage, .failFast⟩

/-- The validator of settings. -/
def ofSettings (settings : EngineSettings) : Validator :=
  ⟨.ofTag settings.tag, settings.message, settings.mode⟩

/-- Use the program of a record type, which is compiled on first use; the
validator keeps the program even if its use fails. -/
def withProgram {α : Type} (environment : Environment) (validator : Validator)
    (type : RecordType) (use : Program → Logged Failure α) : Logged Failure α × Validator :=
  let (program, engine) := validator.engine.compile environment type
  (do use (← program.mapError .compile), { validator with engine })

/-- Validate an instance in a given mode. -/
def run (environment : Environment) (validator : Validator) (inst : Instance) (mode : Mode) :
    Logged Failure Report × Validator :=
  validator.withProgram environment inst.type fun program =>
    (program.validate validator.message mode inst).mapError .fault

/-- Validate an instance in the mode of the validator. -/
def check (environment : Environment) (validator : Validator) (inst : Instance) :
    Logged Failure Report × Validator :=
  validator.run environment inst validator.mode

/-- Validate an instance up to the first rule that fails. -/
def validate (environment : Environment) (validator : Validator) (inst : Instance) :
    Logged Failure Report × Validator :=
  validator.run environment inst .failFast

/-- Validate an instance and collect all rules that fail. -/
def validateAll (environment : Environment) (validator : Validator) (inst : Instance) :
    Logged Failure Report × Validator :=
  validator.run environment inst .collectAll

end Validator

end FieldRules
