import FieldRules.Proofs.Engine.Validation
import FieldRules.Proofs.Program.Siblings

/-!
# The messages of violations

The message of a violation is the text of the expression, on the same field, that the
message name of the validator stands for, or else a general one.  Rules are told from
messages by comparing names, but the message is found through a selector.  The two
agree on every name that is not empty and has no mark at its end, so on all names that
settings admit.  An empty name makes the default expression of a field its message, and
a mark at the end of a name is left out.

The programs of an engine may have been compiled in other environments than the one in
which it is used, since engines keep them.
-/

namespace FieldRules

variable [RegexLibrary]

/-! ## Programs of engines -/

/-- A program that was compiled, whenever and under whatever tag. -/
def Program.Compiled (program : Program) : Prop :=
  ∃ environment tag root, (compile environment tag root).outcome = .ok program

/-- Engines come about from new ones by compiling on demand.  What is asked of the cache of
an engine may be anything that gives compiled programs. -/
inductive Engine.Reachable : Engine → Prop
  | ofTag (tag : String) : Reachable (.ofTag tag)
  | getOrCompile {engine : Engine} (reachable : Reachable engine) (type : RecordType)
      {ε : Type} (compile : Logged ε Program)
      (compiled : ∀ program, compile.outcome = .ok program → program.Compiled) :
      Reachable { engine with
        cache := (engine.cache.getOrCompile RecordType.hash type compile).2 }

/-- All programs of an engine were compiled. -/
structure Engine.Sound (engine : Engine) : Prop where
  wellFormed : engine.cache.WellFormed RecordType.hash
  compiled : ∀ type program, engine.program? type = some program → program.Compiled

section

variable {engine : Engine} {environment : Environment} {type : RecordType} {program : Program}

/-- Compiling a type leads from a reachable engine to a reachable one. -/
theorem Engine.Reachable.compile (reachable : engine.Reachable) (environment : Environment)
    (type : RecordType) : (engine.compile environment type).2.Reachable :=
  reachable.getOrCompile type (Program.compile environment engine.tag type)
    fun _ success => ⟨environment, engine.tag, type, success⟩

theorem Engine.sound_ofTag (tag : String) : (Engine.ofTag tag).Sound where
  wellFormed := .empty
  compiled type program found := by
    have missing : (Engine.ofTag tag).program? type = none := Cache.find?_withBuckets _ type
    rw [missing] at found
    cases found

/-- Compiling on demand adds at most one program, which has just been compiled. -/
theorem Engine.Sound.getOrCompile {ε : Type} (sound : engine.Sound) (type : RecordType)
    (compile : Logged ε Program)
    (compiled : ∀ program, compile.outcome = .ok program → program.Compiled) :
    Engine.Sound { engine with
      cache := (engine.cache.getOrCompile RecordType.hash type compile).2 } := by
  rcases sound.wellFormed.getOrCompile type compile with ⟨kept, finds⟩
  constructor
  · exact kept
  · intro other program found
    have found := (finds other).symm.trans found
    rcases Option.or_eq_some_iff.mp found with old | ⟨-, new⟩
    · exact sound.compiled other program old
    · by_cases same : type = other
      · rw [if_pos same] at new
        cases outcome : compile.outcome with
        | error error =>
            rw [outcome] at new
            cases new
        | ok fresh =>
            rw [outcome] at new
            cases new
            exact compiled program outcome
      · rw [if_neg same] at new
        cases new

theorem Engine.Reachable.sound (reachable : engine.Reachable) : engine.Sound := by
  induction reachable with
  | ofTag tag => exact sound_ofTag tag
  | getOrCompile _ type compile compiled ih => exact ih.getOrCompile type compile compiled

/-- A reachable engine gives compiled programs. -/
theorem Engine.Reachable.compiled (reachable : engine.Reachable)
    (given : (engine.compile environment type).1.outcome = .ok program) : program.Compiled := by
  have found : (engine.compile environment type).2.program? type = some program :=
    reachable.sound.wellFormed.find?_getOrCompile given
  exact (reachable.compile environment type).sound.compiled type program found

end

/-! ## Rules that do not hold -/

/-- A visited rule does not hold, and this is its violation. -/
structure Visit.Reports (message : String) (visit : Visit) (violation : Violation) : Prop where
  rule : visit.compiled.name ≠ some message
  fails : ∃ value, visit.eval = .ok value ∧ value.truthy = false
  reported : (visit.violation message).outcome = .ok violation

section

variable {message : String} {mode : Mode} {visit : Visit} {violation : Violation}
  {violations after : List Violation}

/-- Checking one expression adds its own violation or none. -/
theorem Visit.mem_of_judge {more : Bool}
    (judged : (visit.judge message mode violations).outcome = .ok (after, more))
    (mem : violation ∈ after) : violation ∈ violations ∨ visit.Reports message violation := by
  rw [judge] at judged
  by_cases isMessage : visit.isMessage message
  · rw [if_pos isMessage] at judged
    cases judged
    exact .inl mem
  · rw [if_neg isMessage] at judged
    rcases Logged.outcome_bind_eq_ok_iff.mp judged with ⟨value, evaluated, judged⟩
    by_cases holds : value.truthy
    · rw [if_pos holds] at judged
      cases judged
      exact .inl mem
    · rw [if_neg holds] at judged
      rcases Logged.outcome_bind_eq_ok_iff.mp judged with ⟨made, reported, judged⟩
      cases judged
      rcases List.mem_append.mp mem with earlier | last
      · exact .inl earlier
      · right
        rw [List.mem_singleton.mp last]
        constructor
        · intro named
          exact isMessage (decide_eq_true named)
        · exact ⟨value, evaluated, Bool.not_eq_true _ ▸ holds⟩
        · exact reported

/-- Going through visits adds violations of these visits only. -/
theorem Program.mem_of_visitWhile_judge {visits : List Visit}
    (judged : (visitWhile (Visit.judge message mode) visits violations).outcome = .ok after)
    (mem : violation ∈ after) :
    violation ∈ violations ∨ ∃ visit ∈ visits, visit.Reports message violation := by
  induction visits generalizing violations with
  | nil =>
      cases judged
      exact .inl mem
  | cons visit visits ih =>
      rw [visitWhile] at judged
      rcases Logged.outcome_bind_eq_ok_iff.mp judged with ⟨⟨next, more⟩, here, later⟩
      have earlier : violation ∈ next ∨ ∃ visit ∈ visits, visit.Reports message violation := by
        cases more with
        | false =>
            cases later
            exact .inl mem
        | true => exact ih later
      rcases earlier with added | ⟨reporting, inVisits, reports⟩
      · rcases Visit.mem_of_judge here added with old | reports
        · exact .inl old
        · exact .inr ⟨visit, List.mem_cons_self, reports⟩
      · exact .inr ⟨reporting, List.mem_cons_of_mem _ inVisits, reports⟩

end

section

variable {program : Program} {inst : Instance} {message : String} {mode : Mode} {report : Report}
  {violation : Violation}

/-- A violation of a program is that of a visit. -/
theorem Program.exists_visit_of_validate
    (validated : (program.validate message mode inst).outcome = .ok report)
    (mem : violation ∈ report.violations) :
    ∃ visit ∈ program.visits inst, visit.Reports message violation := by
  rcases Logged.outcome_bind_eq_ok_iff.mp validated with ⟨violations, judged, made⟩
  cases made
  rcases mem_of_visitWhile_judge judged mem with old | reports
  · cases old
  · exact reports

/-- A validation that succeeds is that of the program that the engine gives. -/
theorem Validator.exists_program_of_run {environment : Environment} {validator : Validator}
    (validated : (validator.run environment inst mode).1.outcome = .ok report) :
    ∃ program, (validator.engine.compile environment inst.type).1.outcome = .ok program ∧
      (program.validate validator.message mode inst).outcome = .ok report := by
  rcases Logged.outcome_bind_eq_ok_iff.mp validated with ⟨program, given, validated⟩
  have given := Logged.outcome_mapError_eq_ok_iff.mp given
  have validated := Logged.outcome_mapError_eq_ok_iff.mp validated
  exact ⟨program, given, validated⟩

end

/-! ## Messages -/

/-- A message is the text of the expression of a field that has a given name, or else a
general one. -/
structure ProgramField.Words (program : Program) (inst : Instance) (field : ProgramField)
    (name : Option String) (message : String) : Prop where
  text : ∀ wording ∈ field.expressions, wording.name = name →
    ∀ text, program.evalAt inst field wording = .ok (.text text) → message = text
  general : (∀ wording ∈ field.expressions, wording.name = name →
    ∀ text, program.evalAt inst field wording ≠ .ok (.text text)) →
      message = "invalid parameter: " ++ field.path

omit [RegexLibrary] in
/-- The message names of valid settings stand for themselves. -/
theorem Settings.namedBy_message {settings : Settings} (valid : settings.fault? = none) :
    namedBy settings.engine.message = some settings.engine.message := by
  rw [fault?] at valid
  split_ifs at valid with _ invalid
  rw [Bool.not_eq_true, Bool.not_eq_false'] at invalid
  exact namedBy_of_isWord (Text.isIdentifier_iff.mp invalid).1

section

variable {program : Program} {inst : Instance} {visit : Visit} {message : String}
  {violation : Violation}

/-- A violation tells where its rule stands, and its message comes from the expression of
the field that the message name stands for. -/
theorem Visit.Reports.words (compiled : program.Compiled) (visited : visit ∈ program.visits inst)
    (reports : visit.Reports message violation) :
    violation.field = visit.field.path ∧ violation.selector = visit.compiled.selector ∧
      visit.field.Words program inst (namedBy message) violation.message := by
  rcases compiled with ⟨environment, tag, root, success⟩
  rcases Logged.outcome_bind_eq_ok_iff.mp reports.reported with ⟨value, evaluated, made⟩
  cases made
  constructor
  · rfl
  constructor
  · rfl
  constructor
  · intro wording mem named text worded
    rw [evalNamed_of_named success visited mem named.symm] at evaluated
    rcases Program.exists_of_mem_visits visited with ⟨field, -, compiled, -, rfl⟩
    have same : Except.ok (.text text) = Except.ok value := worded.symm.trans evaluated
    cases same
    rfl
  · intro wordless
    cases value with
    | text text =>
        by_cases named : ∃ wording ∈ visit.field.expressions, wording.name = namedBy message
        · rcases named with ⟨wording, mem, named⟩
          rw [evalNamed_of_named success visited mem named.symm] at evaluated
          rcases Program.exists_of_mem_visits visited with ⟨field, -, compiled, -, rfl⟩
          exact absurd evaluated (wordless wording mem named text)
        · have unnamed (wording : CompiledExpression) (mem : wording ∈ visit.field.expressions) :
              wording.name ≠ namedBy message := by
            intro same
            exact named ⟨wording, mem, same⟩
          rw [evalNamed_of_unnamed success visited unnamed] at evaluated
          cases evaluated
    | _ => rfl

end

/-- Every violation that a validator reports is that of a rule of a field, in the compiled
program that its engine gives for the type of the instance: the rule does not have the
message name, and its value is not truthy.  The message of the violation is the text of the expression of
the same field that the message name stands for; if there is none, or if its value is not
a text, the message names the field.  The message name stands for itself, unless it is
empty or has a mark at its end, which valid settings exclude. -/
theorem violations_worded_by_named_expression {validator : Validator}
    (reachable : validator.engine.Reachable) {environment : Environment} {inst : Instance}
    {mode : Mode} {report : Report}
    (validated : (validator.run environment inst mode).1.outcome = .ok report)
    {violation : Violation} (mem : violation ∈ report.violations) :
    (∃ program, (validator.engine.compile environment inst.type).1.outcome = .ok program ∧
      program.Compiled ∧ ∃ field ∈ program.fields,
        violation.field = field.path ∧
        (∃ rule ∈ field.expressions, violation.selector = rule.selector ∧
          rule.name ≠ some validator.message ∧
          ∃ value, program.evalAt inst field rule = .ok value ∧ value.truthy = false) ∧
        field.Words program inst (namedBy validator.message) violation.message) ∧
    (namedBy validator.message = some validator.message ↔
      validator.message ≠ "" ∧ validator.message.toList.getLast? ≠ some '@') ∧
    ∀ settings : Settings, settings.fault? = none → validator.message = settings.engine.message →
      namedBy validator.message = some validator.message := by
  constructor
  · rcases Validator.exists_program_of_run validated with ⟨program, given, validated⟩
    have compiled := reachable.compiled given
    rcases Program.exists_visit_of_validate validated mem with ⟨visit, visited, reports⟩
    rcases reports.words compiled visited with ⟨path, selector, words⟩
    rcases Program.exists_of_mem_visits visited with ⟨field, inFields, rule, inExpressions, rfl⟩
    have placed : ∃ rule ∈ field.expressions, violation.selector = rule.selector ∧
        rule.name ≠ some validator.message ∧
        ∃ value, program.evalAt inst field rule = .ok value ∧ value.truthy = false :=
      ⟨rule, inExpressions, selector, reports.rule, reports.fails⟩
    exact ⟨program, given, compiled, field, inFields, path, placed, words⟩
  constructor
  · exact namedBy_eq_self_iff
  · intro settings valid same
    rw [same]
    exact Settings.namedBy_message valid

/-- A validator with a new engine reports the failing rules of a program that compiles. -/
theorem Validator.outcome_run_of_new {environment : Environment} {validator : Validator}
    {tag : String} (new : validator.engine = .ofTag tag) {inst : Instance} {program : Program}
    (success : (Program.compile environment tag inst.type).outcome = .ok program)
    (evaluates : program.Evaluates inst) (mode : Mode) :
    (validator.engine.compile environment inst.type).1.outcome = .ok program ∧
      (validator.run environment inst mode).1.outcome =
        .ok ⟨mode.reported (program.failures validator.message inst)⟩ := by
  have missing : (Engine.ofTag tag).cache.find? RecordType.hash inst.type = none :=
    Cache.find?_withBuckets _ inst.type
  have tagged : (Program.compile environment (Engine.ofTag tag).tag inst.type).outcome =
      .ok program := success
  have given : (validator.engine.compile environment inst.type).1.outcome = .ok program := by
    simp only [new, Engine.compile, Cache.getOrCompile, missing, tagged, Logged.outcome_bind,
      Logged.outcome_report, Logged.outcome_pure]
    rfl
  constructor
  · exact given
  · exact outcome_run_of_ok given evaluates

/-- A validator of items with a message name. -/
def itemValidator (message : String) : Validator :=
  ⟨.ofTag "v", message, .collectAll⟩

theorem itemProgram_evaluates : itemProgram.Evaluates sevenItem := by
  intro entry mem
  have mem : entry ∈ itemField.expressions.map fun compiled => (itemField, compiled) := mem
  rcases List.mem_map.mp mem with ⟨compiled, inExpressions, rfl⟩
  simp only [itemField, List.mem_cons, List.not_mem_nil, or_false] at inExpressions
  rcases inExpressions with rfl | rfl | rfl
  · exact ⟨_, rfl⟩
  · exact ⟨_, rfl⟩
  · exact ⟨_, rfl⟩

/-- Validating the item reports its failing rules under the message name. -/
theorem itemValidator_reports (message : String) :
    ((itemValidator message).engine.compile items sevenItem.type).1.outcome = .ok itemProgram ∧
      ((itemValidator message).run items sevenItem .collectAll).1.outcome =
        .ok ⟨itemProgram.failures message sevenItem⟩ :=
  Validator.outcome_run_of_new rfl items_compile itemProgram_evaluates .collectAll

end FieldRules

namespace FieldRules

attribute [local instance] RegexLibrary.empty

/-- The rule of an item does not hold, and the text beside it words the message. -/
theorem violation_of_item_worded :
    (itemValidator "x").engine.Reachable ∧ ∃ report violation,
      ((itemValidator "x").run items sevenItem .collectAll).1.outcome = .ok report ∧
        violation ∈ report.violations ∧ violation.message = "no" := by
  have reachable : (itemValidator "x").engine.Reachable := .ofTag "v"
  have failures : itemProgram.failures "x" sevenItem = [⟨"id", "id@y", "no"⟩] := by decide
  have mem : ⟨"id", "id@y", "no"⟩ ∈ itemProgram.failures "x" sevenItem := by
    rw [failures]
    exact List.mem_cons_self
  rcases itemValidator_reports "x" with ⟨compiled, validated⟩
  rcases violations_worded_by_named_expression reachable validated mem with
    ⟨⟨program, given, -, field, inFields, -, -, words⟩, -⟩
  cases Except.ok.inj (given.symm.trans compiled)
  cases List.mem_singleton.mp inFields
  refine ⟨reachable, _, _, validated, mem, ?_⟩
  exact words.text _ (List.mem_cons_of_mem _ List.mem_cons_self) rfl "no" rfl

/-- An item has no expression with an empty name or with the name `x@`; but with an empty
message name its number words the message, and with the message name `x@` its text does. -/
theorem violations_of_item_worded_by_others :
    (Program.compile items "v" ⟨"Item"⟩).outcome = .ok itemProgram ∧
      (∀ compiled ∈ itemField.expressions,
        compiled.name ≠ some "" ∧ compiled.name ≠ some "x@") ∧
      ((itemValidator "").run items sevenItem .collectAll).1.outcome =
        .ok ⟨[⟨"id", "id@y", "7"⟩]⟩ ∧
      ((itemValidator "x@").run items sevenItem .collectAll).1.outcome =
        .ok ⟨[⟨"id", "id@y", "no"⟩]⟩ := by
  have unnamed : itemProgram.failures "" sevenItem = [⟨"id", "id@y", "7"⟩] := by decide
  have marked : itemProgram.failures "x@" sevenItem = [⟨"id", "id@y", "no"⟩] := by decide
  constructor
  · exact items_compile
  constructor
  · simp only [itemField, List.forall_mem_cons]
    decide
  constructor
  · rw [(itemValidator_reports "").2, unnamed]
  · rw [(itemValidator_reports "x@").2, marked]

end FieldRules
