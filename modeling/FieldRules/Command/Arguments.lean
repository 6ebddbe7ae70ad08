/-!
# Arguments of the program

The program evaluates one expression over a JSON document, or checks
annotations.  Settings can be given with either task.
-/

namespace FieldRules

/-- Where the document of an evaluation comes from. -/
inductive Source where
  | nothing
  | text (json : String)
  | file (path : String)
  deriving Repr, DecidableEq

/-- What the program is asked to do. -/
inductive Task where
  | eval (expression : String) (document : Source)
  | check (annotations : List String)
  deriving Repr, DecidableEq

/-- A call of the program. -/
structure Invocation where
  /-- The file with the settings. -/
  config : Option String
  task : Task
  deriving Repr, DecidableEq

/-- Why there is nothing to do. -/
inductive UsageError where
  | helpRequested
  | unexpected (argument : String)
  | missingValue (option : String)
  | missingExpression
  | missingTask
  /-- The document is given as a text and as a file. -/
  | twoDocuments
  deriving Repr, DecidableEq

/-- The options of the program. -/
inductive OptionName where
  | config
  | json
  | file
  deriving Repr, DecidableEq

/-- The options with the words and letters that give them. -/
def optionNames : List (String × Char × OptionName) :=
  [("config", 'c', .config), ("json", 'j', .json), ("file", 'f', .file)]

/-- The task that is named first. -/
inductive TaskName where
  | eval
  | check
  deriving Repr, DecidableEq

/-- The arguments read so far. -/
structure Arguments where
  task : Option TaskName
  options : List (OptionName × String)
  positional : List String
  deriving Repr, DecidableEq

namespace Arguments

/-- No arguments. -/
def empty : Arguments := ⟨none, [], []⟩

/-- Whether a task takes an option. -/
def accepts (arguments : Arguments) (name : OptionName) : Bool :=
  name = .config || arguments.task = some .eval

/-- Add an option; each may be given once. -/
def addOption (arguments : Arguments) (name : OptionName) (value : String) :
    Except UsageError Arguments :=
  if !arguments.accepts name || (arguments.options.lookup name).isSome then
    .error (.unexpected value)
  else .ok { arguments with options := (name, value) :: arguments.options }

/-- Add an argument that is not an option: the first one names the task. -/
def addPositional (arguments : Arguments) (value : String) : Except UsageError Arguments :=
  match arguments.task with
  | none =>
      if value = "eval" then .ok { arguments with task := some .eval }
      else if value = "check" then .ok { arguments with task := some .check }
      else if value = "help" then .error .helpRequested
      else .error (.unexpected value)
  | some .eval =>
      if arguments.positional.isEmpty then .ok { arguments with positional := [value] }
      else .error (.unexpected value)
  | some .check => .ok { arguments with positional := arguments.positional ++ [value] }

/-- An argument that gives an option: its name, and the value if that is part of
the argument. -/
def splitOption? (argument : List Char) : Option (OptionName × Option (List Char)) :=
  match argument with
  | '-' :: '-' :: word =>
      let name := word.takeWhile (· ≠ '=')
      match optionNames.find? fun entry => entry.1.toList = name with
      | none => none
      | some (_, _, option) =>
          match word.dropWhile (· ≠ '=') with
          | [] => some (option, none)
          | _ :: value => some (option, some value)
  | '-' :: letter :: value =>
      match optionNames.find? fun entry => entry.2.1 = letter with
      | none => none
      | some (_, _, option) =>
          match value with
          | [] => some (option, none)
          | '=' :: value => some (option, some value)
          | value => some (option, some value)
  | _ => none

/-- Whether an argument looks like an option. -/
def isOption (argument : String) : Bool :=
  argument.startsWith "-" && argument ≠ "-"

/-- Read arguments; behind `--` none of them is an option. -/
def read (arguments : Arguments) : List String → Except UsageError Arguments
  | [] => .ok arguments
  | "--" :: rest => rest.foldlM addPositional arguments
  | "-h" :: _ => .error .helpRequested
  | "--help" :: _ => .error .helpRequested
  | argument :: rest =>
      if !isOption argument then do
        read (← arguments.addPositional argument) rest
      else
        match splitOption? argument.toList, rest with
        | none, _ => .error (.unexpected argument)
        | some (name, some value), rest => do
            read (← arguments.addOption name (.ofList value)) rest
        | some (_, none), [] => .error (.missingValue argument)
        | some (name, none), value :: rest =>
            if isOption value then .error (.missingValue argument)
            else do read (← arguments.addOption name value) rest

/-- The document that the options give. -/
def source (arguments : Arguments) : Except UsageError Source :=
  match arguments.options.lookup .json, arguments.options.lookup .file with
  | some _, some _ => .error .twoDocuments
  | some json, none => .ok (.text json)
  | none, some path => .ok (.file path)
  | none, none => .ok .nothing

/-- The task that the arguments describe. -/
def toTask (arguments : Arguments) : Except UsageError Task :=
  match arguments.task, arguments.positional with
  | none, _ => .error .missingTask
  | some .check, annotations => .ok (.check annotations)
  | some .eval, [] => .error .missingExpression
  | some .eval, expression :: _ => do .ok (.eval expression (← arguments.source))

end Arguments

/-- Read the arguments of the program. -/
def Invocation.ofArguments (arguments : List String) : Except UsageError Invocation := do
  let arguments ← Arguments.empty.read arguments
  let task ← arguments.toTask
  .ok ⟨arguments.options.lookup .config, task⟩

/-- How the program is used. -/
def usage : String :=
  "Usage: tagx [--config FILE] eval [--json JSON | --file FILE] [--] EXPRESSION\n" ++
    "       tagx [--config FILE] check [--] [ANNOTATION]...\n"

/-- The message for arguments that cannot be used. -/
def UsageError.message : UsageError → String
  | helpRequested => usage
  | unexpected argument => "error: unexpected argument '" ++ argument ++ "'\n\n" ++ usage
  | missingValue option => "error: a value is required for '" ++ option ++ "'\n\n" ++ usage
  | missingExpression => "error: an expression is required\n\n" ++ usage
  | missingTask => "error: a task is required\n\n" ++ usage
  | twoDocuments => "error: '--json' cannot be used with '--file'\n\n" ++ usage

end FieldRules
