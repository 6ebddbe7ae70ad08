import FieldRules.Command.Run

/-!
# The command line

Reads the files that a call asks for, and prints and writes the answer.  Events
carry no clock time.
-/

namespace FieldRules

/-- The text of a file. -/
def readText (path : String) : IO (Except FileError String) := do
  try
    pure (.ok (← IO.FS.readFile path))
  catch
    | .noFileOrDirectory .. => pure (.error .missing)
    | error => pure (.error (.unreadable (toString error)))

/-- The files that a call reads, with their texts. -/
def readFiles (invocation : Invocation) : IO (List (String × Except FileError String)) :=
  invocation.files.mapM fun path => do
    pure (path, ← readText path)

/-- The call with the full path of its settings, where that exists. -/
def resolveConfig (invocation : Invocation) : IO Invocation := do
  match invocation.config with
  | none => pure invocation
  | some path =>
      try
        pure { invocation with config := some (← IO.FS.realPath path).toString }
      catch _ => pure invocation

/-- Add a text to a log file, which is created with its directories if need be. -/
def writeLog (path text : String) : IO Unit := do
  IO.FS.createDirAll (directoryOf path)
  let handle ← IO.FS.Handle.mk path .append
  handle.putStr text

/-- Print and write an answer. -/
def Answer.deliver (answer : Answer) : IO UInt32 := do
  match answer.log with
  | some (path, text) => writeLog path text
  | none => pure ()
  IO.eprint answer.errors
  IO.print answer.output
  pure answer.exit.toUInt32

/-- Answer to the arguments of the program, with a library of regular expressions. -/
def runProgram [RegexLibrary] (arguments : List String) : IO UInt32 := do
  match Invocation.ofArguments arguments with
  | .error error => error.answer.deliver
  | .ok invocation =>
      let invocation ← resolveConfig invocation
      let files ← readFiles invocation
      let world : World :=
        { file := fun path => (files.lookup path).getD (.error .missing)
          filter := ← IO.getEnv "RUST_LOG"
          time := "<unknown time>" }
      (invocation.answer world).deliver

end FieldRules
