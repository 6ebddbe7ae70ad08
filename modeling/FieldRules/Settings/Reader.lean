import FieldRules.Settings.Basic
import FieldRules.Toml.Reader

/-!
# Reading settings

Settings are written as a TOML document with the sections `engine` and
`logging`.  Other sections are refused, other keys inside the sections are not
looked at, and what is missing has its default value.  A section may also be
written as an array of its values in order.
-/

namespace FieldRules

/-! ## Parts of settings -/

/-- The fields of a section: the members of a table, or the items of an array
with the names of the fields in order. -/
def sectionFields (names : List String) : Toml.Value → Option (List (String × Toml.Value))
  | .array items => some (names.zip items)
  | value => value.members?

/-- A field of a section; it has a default where it is missing. -/
def fieldOr {α : Type} (fields : List (String × Toml.Value)) (name : String) (default : α)
    (read : Toml.Value → Option α) : Option α :=
  match fields.lookup name with
  | some value => read value
  | none => some default

/-- One of several named alternatives: its name, or a table with an empty table
or array under that name. -/
def readChoice {α : Type} (choices : List (String × α)) : Toml.Value → Option α
  | .text name => choices.lookup name
  | .table [(name, .table [])] => choices.lookup name
  | .table [(name, .array [])] => choices.lookup name
  | _ => none

/-- The modes by their names. -/
def modeNames : List (String × Mode) :=
  [.failFast, .collectAll].map fun mode => (mode.name, mode)

/-- The forms of log lines by their names. -/
def formatNames : List (String × LogFormat) :=
  [.plain, .json].map fun format => (format.name, format)

/-- Levels of modules, in the order of the names of the modules. -/
def readModules (value : Toml.Value) : Option (List (String × String)) := do
  let members ← value.members?
  let levels ← members.mapM fun member => do
    let level ← member.2.text?
    some (member.1, level)
  some (levels.mergeSort fun first second => first.1 ≤ second.1)

/-- The section `engine`. -/
def readEngine (value : Toml.Value) : Option EngineSettings := do
  let fields ← sectionFields ["tag", "message", "mode"] value
  let tag ← fieldOr fields "tag" defaultTag Toml.Value.text?
  let message ← fieldOr fields "message" defaultMessage Toml.Value.text?
  let mode ← fieldOr fields "mode" .failFast (readChoice modeNames)
  some ⟨tag, message, mode⟩

/-- The section `logging`. -/
def readLogging (value : Toml.Value) : Option LogSettings := do
  let fields ← sectionFields ["level", "modules", "file", "format"] value
  let level ← fieldOr fields "level" LogSettings.default.level Toml.Value.text?
  let modules ← fieldOr fields "modules" LogSettings.default.modules readModules
  let file ← fieldOr fields "file" none fun value => value.text?.map some
  let format ← fieldOr fields "format" .plain (readChoice formatNames)
  some ⟨level, modules, file, format⟩

/-- Settings from a document. -/
def readSettings (document : Toml.Value) : Option Settings := do
  let members ← document.members?
  if members.all fun member => member.1 = "engine" || member.1 = "logging" then do
    let engine ← fieldOr members "engine" .default readEngine
    let logging ← fieldOr members "logging" .default readLogging
    some ⟨engine, logging⟩
  else none

/-! ## Settings from texts -/

/-- Why a text gives no settings. -/
inductive SettingsError where
  /-- It is no document, or not one of settings. -/
  | unreadable
  | invalid (fault : SettingsFault)
  deriving Repr, DecidableEq

namespace Settings

/-- The settings in a text. -/
def ofText (text : String) : Except SettingsError Settings :=
  match (Toml.ofText? text).bind readSettings with
  | none => .error .unreadable
  | some settings =>
      match settings.fault? with
      | some fault => .error (.invalid fault)
      | none => .ok settings

/-- A file name as seen from a directory. -/
def pathFrom (directory file : String) : String :=
  if file.startsWith "/" then file else directory ++ "/" ++ file

/-- The settings in a file of a directory; the name of the log file is relative
to the directory. -/
def ofFile (directory text : String) : Except SettingsError Settings := do
  let settings ← ofText text
  let file := settings.logging.file.map (pathFrom directory)
  .ok { settings with logging := { settings.logging with file } }

end Settings

end FieldRules
