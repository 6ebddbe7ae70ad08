import FieldRules.Log.Event
import FieldRules.Number.Numeral
import FieldRules.Text.Alphanumeric
import FieldRules.Text.Blank
import FieldRules.Text.Word

/-!
# Log filters

A filter is a list of directives separated by commas.  A directive sets the
least level of the events that pass, for all events or for those of a target,
inside a span, or with certain fields.  Among the directives that apply to an
event, the one for the longest target decides.
-/

namespace FieldRules

/-- The least level that passes; without one nothing passes. -/
abbrev Threshold := Option Level

namespace Threshold

/-- The thresholds by their numbers. -/
def numbered : List Threshold :=
  [none, some .error, some .warn, some .info, some .debug, some .trace]

/-- The thresholds by their names. -/
def named : List (String × Threshold) :=
  [("off", none), ("error", some .error), ("warn", some .warn), ("info", some .info),
    ("debug", some .debug), ("trace", some .trace)]

/-- A threshold by its number or its name, in letters of either case. -/
def ofText? (text : List Char) : Option Threshold :=
  let digits :=
    match text with
    | '+' :: digits => digits
    | digits => digits
  if !digits.isEmpty && digits.all Char.isDigit then numbered[Number.digitsValue digits]?
  else named.lookup (.ofList (text.map Char.toLower))

/-- Whether a level passes. -/
def admits (threshold : Threshold) (level : Level) : Bool :=
  threshold.any (·.rank ≤ level.rank)

end Threshold

/-- A directive of a filter. -/
structure Directive where
  /-- The beginning of the targets it applies to. -/
  target : Option (List Char)
  /-- The span it applies to. -/
  span : Option (List Char)
  /-- Tests of fields: a name, perhaps with a value. -/
  fields : List (List Char)
  threshold : Threshold
  deriving Repr, DecidableEq

/-- Why a text is not a directive. -/
inductive DirectiveError where
  | malformed
  | unknownLevel
  deriving Repr, DecidableEq

/-- The message for a text that is not a directive. -/
def DirectiveError.message : DirectiveError → String
  | malformed => "invalid filter directive"
  | unknownLevel =>
      "error parsing level filter: expected one of \"off\", \"error\", \"warn\", \"info\", " ++
        "\"debug\", \"trace\", or a number 0-5"

namespace Directive

/-! ## Reading directives

Space around a directive is left out when its parts are told apart, but their
positions are then counted in the whole text. -/

/-- The part of a text between two positions. -/
def slice (text : List Char) (start stop : Nat) : List Char :=
  (text.drop start).take (stop - start)

/-- The first position from `start` on with a character that fulfils a condition. -/
def positionFrom (text : List Char) (start : Nat) (condition : Char → Bool) : Nat :=
  start + ((text.drop start).takeWhile (!condition ·)).length

/-- The characters that a directive may start with, brackets aside. -/
def isStart (c : Char) : Bool :=
  c = '-' || c = ':' || c = '_' ||
    Text.letterRanges.holds c || Text.numberRanges.holds c

/-- The threshold behind an equals sign; by default everything passes. -/
def readThreshold (text : List Char) : Except DirectiveError Threshold :=
  if text.isEmpty then .ok (some .trace)
  else
    match Threshold.ofText? text with
    | some threshold => .ok threshold
    | none => .error .unknownLevel

/-- Read the threshold behind the brackets of a directive. -/
def readTail (text trimmed : List Char) (start : Nat) (directive : Directive) :
    Except DirectiveError Directive :=
  match trimmed[start]? with
  | none => .ok directive
  | some '=' => do
      let threshold ← readThreshold (text.drop (start + 1))
      .ok { directive with threshold }
  | some _ => .error .malformed

/-- Read a directive from behind its opening bracket on. -/
def readBrackets (text trimmed : List Char) (target : Option (List Char)) (start : Nat) :
    Except DirectiveError Directive :=
  let stop := positionFrom trimmed start fun c => c = ']' || c = '{'
  let name := slice text start stop
  match trimmed[stop]? with
  | some ']' => readTail text trimmed (stop + 1) ⟨target, some name, [], some .trace⟩
  | some _ =>
      let close := positionFrom trimmed (stop + 1) (· = '}')
      let field := slice text (stop + 1) close
      let span := if name.isEmpty then none else some name
      if field.isEmpty || trimmed[close + 1]? ≠ some ']' then .error .malformed
      else readTail text trimmed (close + 2) ⟨target, span, [field], some .trace⟩
  | none => .error .malformed

/-- Read a directive: a level, a target, or a target and things in brackets with
a level behind an equals sign. -/
def ofText (text : List Char) : Except DirectiveError Directive :=
  let trimmed := Text.trim text
  match trimmed with
  | [] => .error .malformed
  | '[' :: _ => readBrackets text trimmed none 1
  | first :: _ =>
      if !isStart first then .error .malformed
      else
        let stop := positionFrom trimmed 0 fun c => c = '=' || c = '['
        let target := slice text 0 stop
        match trimmed[stop]? with
        | some '=' => do
            let threshold ← readThreshold (text.drop (stop + 1))
            .ok ⟨some target, none, [], threshold⟩
        | some _ => readBrackets text trimmed (some target) (stop + 1)
        | none =>
            match Threshold.ofText? text with
            | some threshold => .ok ⟨none, none, [], threshold⟩
            | none => .ok ⟨some text, none, [], some .trace⟩

/-! ## Applying directives -/

/-- Whether a directive applies to an event outside of all spans.  It must not
ask for a span or for the value of a field. -/
def appliesTo (directive : Directive) (target : String) (event : Event) : Bool :=
  directive.span.isNone &&
    (directive.target.all fun start => start.isPrefixOf target.toList) &&
    directive.fields.all fun field =>
      ("message" :: "domain" :: event.fields.map (·.1)).contains (.ofList field)

/-- How closely a directive describes the events that it applies to. -/
def precision (directive : Directive) : Nat :=
  2 * (directive.target.map (·.length + 1)).getD 0 + directive.fields.length

end Directive

/-- A filter: its directives, and the threshold of a filter without any. -/
structure Filter where
  directives : List Directive
  fallback : Threshold
  deriving Repr

namespace Filter

/-- The texts of the directives of a filter. -/
def directiveTexts (text : String) : List (List Char) :=
  (Text.separate ',' text.toList).filter fun part => !part.isEmpty

/-- Read a filter; nothing passes a filter without directives. -/
def ofText (text : String) : Except DirectiveError Filter := do
  let directives ← (directiveTexts text).mapM Directive.ofText
  .ok ⟨directives, none⟩

/-- Read a filter without the texts in it that are not directives; errors pass a
filter without directives. -/
def ofTextLossy (text : String) : Filter :=
  ⟨(directiveTexts text).filterMap fun part => (Directive.ofText part).toOption, some .error⟩

/-- The texts in a filter that are not directives. -/
def ignored (text : String) : List (List Char × DirectiveError) :=
  (directiveTexts text).filterMap fun part =>
    match Directive.ofText part with
    | .ok _ => none
    | .error error => some (part, error)

/-- The directive that decides on an event: the closest one, of several equally
close ones the last. -/
def deciding? (filter : Filter) (target : String) (event : Event) : Option Directive :=
  (filter.directives.filter (·.appliesTo target event)).foldl
    (fun best directive =>
      if best.all (·.precision ≤ directive.precision) then some directive else best) none

/-- Whether an event of a target passes. -/
def passes (filter : Filter) (target : String) (event : Event) : Bool :=
  if filter.directives.isEmpty then filter.fallback.admits event.level
  else (filter.deciding? target event).any (·.threshold.admits event.level)

end Filter

end FieldRules
