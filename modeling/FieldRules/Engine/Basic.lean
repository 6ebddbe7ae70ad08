import FieldRules.Engine.Cache
import FieldRules.Program.Compile
import FieldRules.Settings.Basic

/-!
# Engines

An engine compiles the annotations under one tag and keeps the programs.
Record types and predicates may change afterwards; programs that are there do
not.
-/

namespace FieldRules

variable [RegexLibrary]

/-- A tag, and the programs compiled for it. -/
structure Engine where
  tag : String
  cache : Cache Program

/-- The hash by which an engine spreads its programs. -/
def RecordType.hash (type : RecordType) : Nat :=
  type.name.toList.foldl (fun sum c => (31 * sum + c.toNat) % Nat.pow 2 64) 0

namespace Engine

/-- An engine for a tag. -/
def ofTag (tag : String) : Engine :=
  ⟨tag, .empty⟩

/-- The program of a record type, if it has been compiled. -/
def program? (engine : Engine) (type : RecordType) : Option Program :=
  engine.cache.find? RecordType.hash type

/-- The program of a record type, which is compiled on first use, and the engine
afterwards. -/
def compile (environment : Environment) (engine : Engine) (type : RecordType) :
    Logged CompileError Program × Engine :=
  let (program, cache) :=
    engine.cache.getOrCompile RecordType.hash type (Program.compile environment engine.tag type)
  (program, { engine with cache })

end Engine

/-- Register a predicate and report that. -/
def Registry.registerLogged (registry : Registry) (name : String) (predicate : Predicate)
    (force : Bool) : Logged RegistrationError Registry := do
  let registry ← Logged.ofExcept (registry.register name predicate force)
  .report (.functionRegistered name force)
  pure registry

end FieldRules
