import FieldRules.Command.Arguments
import FieldRules.Document.Reader
import FieldRules.Eval.Basic
import FieldRules.Expr.Annotation
import FieldRules.Expr.Printer
import FieldRules.Log.Filter
import FieldRules.Log.Line
import FieldRules.Settings.Reader

/-!
# Running the program

What the program answers to its arguments: an exit code, what it prints, and
what it writes to its log file.  The files that it reads, its environment and
the time are given.
-/

namespace FieldRules

variable [RegexLibrary]

/-! ## Surroundings -/

/-- Why a file cannot be read. -/
inductive FileError where
  | missing
  | unreadable (reason : String)
  deriving Repr, DecidableEq

/-- The message for a file that cannot be read. -/
def FileError.message : FileError → String
  | missing => "No such file or directory (os error 2)"
  | unreadable reason => reason

/-- What the program finds when it runs. -/
structure World where
  /-- The contents of files. -/
  file : String → Except FileError String
  /-- The log filter in the environment. -/
  filter : Option String
  /-- The time of all events. -/
  time : String

/-- What the program answers. -/
structure Answer where
  exit : Nat
  output : String
  errors : String
  /-- The log file with what is written to it. -/
  log : Option (String × String)
  deriving Repr, DecidableEq

/-! ## Errors -/

/-- Why the program gives up. -/
inductive CommandError where
  | configMissing (path : String) (error : FileError)
  | configUnread (path : String) (error : FileError)
  | config (path : String) (error : SettingsError)
  | filter (directives : String) (error : DirectiveError)
  | logWithoutDirectory
  | logWithoutName
  | documentUnread (path : String) (error : FileError)
  | document
  | expression (error : SyntaxError)
  | fault (fault : Format.Fault)

/-- The message of an error of the program. -/
def CommandError.message : CommandError → String
  | configMissing path error => "config path '" ++ path ++ "': " ++ error.message
  | configUnread path error => "failed to read " ++ path ++ ": " ++ error.message
  | config path .unreadable => path ++ ": TOML parse error"
  | config path (.invalid problem) => path ++ ": " ++ problem.message
  | filter directives error => "invalid log filter '" ++ directives ++ "': " ++ error.message
  | logWithoutDirectory => "log file path has no parent directory"
  | logWithoutName => "log file path has no file name"
  | documentUnread path error => "failed to read " ++ path ++ ": " ++ error.message
  | document => "invalid JSON document: not a JSON text"
  | expression error => "parse error: " ++ error.message
  | fault _ => "a number cannot be written with that many decimal places"

/-- The exit code after an error. -/
def CommandError.exit : CommandError → Nat
  | fault _ => 101
  | _ => 1

/-- What the program prints about an error. -/
def CommandError.report (error : CommandError) : String :=
  "Error: " ++ error.message ++ "\n"

/-! ## Logging -/

/-- Where events go. -/
structure Logger where
  filter : Filter
  format : LogFormat
  file : Option String
  /-- What was reported when the filter was read. -/
  warnings : String

/-- The part of the program that reports events. -/
def logTarget : String := "tagx::cmd_eval"

/-- The directory of a file. -/
def directoryOf (path : String) : String :=
  .ofList ((path.toList.reverse.dropWhile (· ≠ '/')).drop 1).reverse

/-- Whether a log file can have this path: it has a name in a directory. -/
def checkLogPath (path : String) : Except CommandError Unit :=
  let parts := (Text.separate '/' path.toList).filter fun part => !part.isEmpty && part ≠ ['.']
  match parts.getLast? with
  | none => .error .logWithoutDirectory
  | some name => if name = ['.', '.'] then .error .logWithoutName else .ok ()

/-- The warning about a part of a filter that is left out. -/
def ignoredWarning (part : List Char × DirectiveError) : String :=
  "ignoring `" ++ .ofList part.1 ++ "`: " ++ part.2.message ++ "\n"

/-- The logger of settings; a filter in the environment comes first. -/
def LogSettings.logger (world : World) (settings : LogSettings) : Except CommandError Logger := do
  let (filter, warnings) ← (match world.filter with
    | some text =>
        .ok (Filter.ofTextLossy text, String.join ((Filter.ignored text).map ignoredWarning))
    | none =>
        match Filter.ofText settings.directives with
        | .ok filter => .ok (filter, "")
        | .error error => .error (.filter settings.directives error))
  settings.file.forM checkLogPath
  .ok ⟨filter, settings.format, settings.file, warnings⟩

/-- The settings of logging: those of a file, or the default ones. -/
def loadLogging (world : World) : (config : Option String) → Except CommandError LogSettings
  | none => .ok .default
  | some path =>
      match world.file path with
      | .error .missing => .error (.configMissing path .missing)
      | .error error => .error (.configUnread path error)
      | .ok text =>
          match Settings.ofFile (directoryOf path) text with
          | .error error => .error (.config path error)
          | .ok settings => .ok settings.logging

/-! ## Tasks -/

/-- What a task leads to: events, an error or output, and perhaps complaints
that are not errors of the program. -/
structure Performance where
  events : List Event
  output : String
  complaints : String
  exit : Nat

/-- The document of an evaluation. -/
def readDocument (world : World) (source : Source) : Except CommandError Json := do
  let text ← (match source with
    | .nothing => .ok "null"
    | .text json => .ok json
    | .file path =>
        match world.file path with
        | .ok text => .ok text
        | .error error => .error (.documentUnread path error))
  match Json.ofText? text with
  | some document => .ok document
  | none => .error .document

/-- Evaluate an expression over a document. -/
def performEval (world : World) (expression : String) (source : Source) :
    Except CommandError Performance := do
  let document ← readDocument world source
  match Expression.ofText .empty expression with
  | .error error => .error (.expression error)
  | .ok expression =>
      match expression.evalValue document.scope with
      | .error fault => .error (.fault fault)
      | .ok value => .ok ⟨[.expressionRead expression.toText], value.toText ++ "\n", "", 0⟩

/-- The line about one expression of an annotation: its name, its tree and the
fields it refers to. -/
def NamedExpression.line (named : NamedExpression) : String :=
  let fields :=
    match named.expression.fieldPaths with
    | [] => ""
    | paths => "  fields=" ++ ",".intercalate paths
  "  " ++ named.shownName ++ ": " ++ named.expression.toText ++ fields ++ "\n"

/-- What is said about one annotation: output if it can be read, a complaint
otherwise. -/
def checkOne (source : String) : Except String String :=
  match Annotation.ofText .empty source with
  | .ok named => .ok (source ++ "\n" ++ String.join (named.map (·.line)))
  | .error error => .error (source ++ "\n  error: " ++ error.message ++ "\n")

/-- Check annotations and count those that cannot be read. -/
def performCheck (annotations : List String) : Performance :=
  let results := annotations.map checkOne
  let accepted := results.filterMap Except.toOption
  let rejected := results.filterMap fun
    | .ok _ => none
    | .error complaint => some complaint
  let count :=
    if rejected.isEmpty then ""
    else "\n" ++ toString rejected.length ++ " annotation(s) rejected\n"
  ⟨[], String.join accepted, String.join rejected ++ count, if rejected.isEmpty then 0 else 1⟩

/-- Perform a task. -/
def Task.perform (world : World) : Task → Except CommandError Performance
  | eval expression source => performEval world expression source
  | check annotations => .ok (performCheck annotations)

/-! ## The program -/

namespace Logger

/-- The lines of events that pass. -/
def lines (logger : Logger) (coloured : Bool) (time : String) (events : List Event) : String :=
  String.join ((events.filter (logger.filter.passes logTarget)).map
    (·.line logger.format coloured time))

/-- The answer to a task under a logger. -/
def answer (world : World) (logger : Logger) (task : Task) : Answer :=
  match task.perform world with
  | .error error =>
      ⟨error.exit, "", logger.warnings ++ error.report, logger.file.map (·, "")⟩
  | .ok performance =>
      ⟨performance.exit, performance.output,
        logger.warnings ++ logger.lines true world.time performance.events ++
          performance.complaints,
        logger.file.map (·, logger.lines false world.time performance.events)⟩

end Logger

/-- The answer to a call of the program. -/
def Invocation.answer (world : World) (invocation : Invocation) : Answer :=
  match loadLogging world invocation.config >>= LogSettings.logger world with
  | .error error => ⟨error.exit, "", error.report, none⟩
  | .ok logger => logger.answer world invocation.task

/-- The answer to arguments that cannot be used. -/
def UsageError.answer (error : UsageError) : Answer :=
  match error with
  | .helpRequested => ⟨0, error.message, "", none⟩
  | _ => ⟨2, "", error.message, none⟩

/-- The answer of the program to its arguments. -/
def programAnswer (world : World) (arguments : List String) : Answer :=
  match Invocation.ofArguments arguments with
  | .ok invocation => invocation.answer world
  | .error error => error.answer

/-- The files that a call of the program reads. -/
def Invocation.files (invocation : Invocation) : List String :=
  invocation.config.toList ++
    match invocation.task with
    | .eval _ (.file path) => [path]
    | _ => []

end FieldRules
