import FieldRules.Document.Quoted
import FieldRules.Log.Event
import FieldRules.Settings.Basic

/-!
# Log lines

An event is written as a line of plain text, in colour for people who read along,
or as a JSON object.
-/

namespace FieldRules

/-- The number of a terminal colour for a level. -/
def Level.colour : Level → String
  | trace => "35"
  | debug => "34"
  | info => "32"
  | warn => "33"
  | error => "31"

/-- A text with a terminal style. -/
def styled (style text : String) : String :=
  "\x1b[" ++ style ++ "m" ++ text ++ "\x1b[0m"

/-- The name of a level, filled up to five characters. -/
def Level.column (level : Level) : String :=
  .ofList (List.replicate (5 - level.name.length) ' ') ++ level.name

namespace Event

/-- The fields of an event behind its message. -/
def trailer (event : Event) : String :=
  String.join (event.fields.map fun field => " " ++ field.1 ++ "=" ++ field.2)

/-- An event as a line of plain text. -/
def plainLine (coloured : Bool) (time : String) (event : Event) : String :=
  let level := if coloured then styled event.level.colour event.level.column else event.level.column
  let domain := "[" ++ event.domain ++ "]"
  let domain := if coloured then styled "1;36" domain else domain
  time ++ " " ++ level ++ " " ++ domain ++ " " ++ event.message ++ event.trailer ++ "\n"

/-- A member of a JSON object. -/
def jsonMember (name text : String) : String :=
  Json.quoted name ++ ":" ++ Json.quoted text

/-- A JSON object with given members. -/
def jsonObject (members : List String) : String :=
  "\x7b" ++ ",".intercalate members ++ "\x7d"

/-- An event as a JSON object on a line. -/
def jsonLine (time : String) (event : Event) : String :=
  let fields := ("message", event.message) :: ("domain", event.domain) :: event.fields
  jsonObject
    [jsonMember "timestamp" time, jsonMember "level" event.level.name,
      Json.quoted "fields" ++ ":" ++ jsonObject (fields.map fun field => jsonMember field.1 field.2)]
    ++ "\n"

/-- The line of an event in a given form. -/
def line (format : LogFormat) (coloured : Bool) (time : String) (event : Event) : String :=
  match format with
  | .plain => event.plainLine coloured time
  | .json => event.jsonLine time

end Event

end FieldRules
