import FieldRules.Text.Blank
import FieldRules.Text.Quoted
import FieldRules.Text.Word

/-!
# Settings

Settings choose the annotations that are compiled, how validation goes about
its work, and what is logged where.  Everything has a default.
-/

namespace FieldRules

open FieldRules.Text (quoted)

/-- What validation does after a rule that fails. -/
inductive Mode where
  /-- Stop at the first rule that fails. -/
  | failFast
  /-- Go on and collect all rules that fail. -/
  | collectAll
  deriving Repr, DecidableEq

/-- The word for a mode. -/
def Mode.name : Mode → String
  | failFast => "fail_fast"
  | collectAll => "collect_all"

/-- The tag of the annotations that are compiled by default. -/
def defaultTag : String := "vd"

/-- The default name of the expression that words a message. -/
def defaultMessage : String := "msg"

/-- The settings of validation. -/
structure EngineSettings where
  tag : String
  message : String
  mode : Mode
  deriving Repr, DecidableEq

/-- The default settings of validation. -/
def EngineSettings.default : EngineSettings :=
  ⟨defaultTag, defaultMessage, .failFast⟩

/-- The form of log lines. -/
inductive LogFormat where
  | plain
  | json
  deriving Repr, DecidableEq

/-- The word for a form of log lines. -/
def LogFormat.name : LogFormat → String
  | plain => "plain"
  | json => "json"

/-- The settings of logging. -/
structure LogSettings where
  level : String
  /-- Levels of single modules, in the order of their names. -/
  modules : List (String × String)
  file : Option String
  format : LogFormat
  deriving Repr, DecidableEq

/-- The default settings of logging. -/
def LogSettings.default : LogSettings :=
  ⟨"info", [], none, .plain⟩

/-- The directives that select events: the level, then those of single modules. -/
def LogSettings.directives (settings : LogSettings) : String :=
  ",".intercalate
    (settings.level :: settings.modules.map fun entry => entry.1 ++ "=" ++ entry.2)

/-- The settings. -/
structure Settings where
  engine : EngineSettings
  logging : LogSettings
  deriving Repr, DecidableEq

/-- The default settings. -/
def Settings.default : Settings :=
  ⟨.default, .default⟩

/-! ## Validity -/

/-- What settings may not be. -/
inductive SettingsFault where
  | invalidTag (tag : String)
  | invalidMessage (message : String)
  | emptyLevel
  deriving Repr, DecidableEq

/-- The message for settings that are not valid. -/
def SettingsFault.message : SettingsFault → String
  | invalidTag tag =>
      "engine.tag: invalid annotation key " ++ quoted tag ++
        ", must match [A-Za-z_][A-Za-z0-9_]*"
  | invalidMessage message =>
      "engine.message: invalid expression name " ++ quoted message ++
        ", must match [A-Za-z_][A-Za-z0-9_]*"
  | emptyLevel => "logging.level must not be empty"

/-- The first thing that is wrong with settings: tag and message name have to be
identifiers, and the level may not be blank. -/
def Settings.fault? (settings : Settings) : Option SettingsFault :=
  if !Text.isIdentifier settings.engine.tag.toList then some (.invalidTag settings.engine.tag)
  else if !Text.isIdentifier settings.engine.message.toList then
    some (.invalidMessage settings.engine.message)
  else if Text.isBlankText settings.logging.level.toList then some .emptyLevel
  else none

end FieldRules
