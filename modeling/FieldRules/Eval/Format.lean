import FieldRules.Datum.Text
import FieldRules.Number.Places
import FieldRules.Number.Numeral

/-!
# Formatted text

A format is literal text with directives `%[flags][width][.precision]verb`.
Each directive other than `%%` shows the next argument.  Directives are read
one character at a time, so a format is a sequence of segments that are shown
one after the other.
-/

namespace FieldRules.Format

/-! ## Directives -/

/-- The part of a directive between `%` and its verb. -/
structure Directive where
  /-- `-`: fill on the right. -/
  left : Bool
  /-- `0`: fill numbers with zeros. -/
  zero : Bool
  width : Option Nat
  precision : Option Nat
  deriving Repr, DecidableEq

/-- A directive of which only the `%` has been read. -/
def Directive.start : Directive := ⟨false, false, none, none⟩

/-- The greatest word of 64 bits. -/
def greatestCount : Nat := 0xffffffffffffffff

/-- One more digit at the end of a decimal number; the count stops at the greatest
word. -/
def appendDigit (value : Option Nat) (digit : Char) : Option Nat :=
  some (min (10 * value.getD 0 + (digit.toNat - '0'.toNat)) greatestCount)

/-- Read one more character of a directive: flags come first, then the width,
then a point and the precision.  Any other character is the verb. -/
def Directive.read (directive : Directive) (c : Char) : Option Directive :=
  if directive.precision.isSome then
    if c.isDigit then some { directive with precision := appendDigit directive.precision c }
    else none
  else if c = '.' then some { directive with precision := some 0 }
  else if c.isDigit && (directive.width.isSome || c ≠ '0') then
    some { directive with width := appendDigit directive.width c }
  else if directive.width.isNone && c = '-' then some { directive with left := true }
  else if directive.width.isNone && c = '0' then some { directive with zero := true }
  else none

/-- A part of a format: a character that stands for itself, a directive with its
verb, or a directive cut off by the end of the format. -/
inductive Segment where
  | literal (c : Char)
  | directive (directive : Directive) (verb : Char)
  | unfinished (directive : Directive)
  deriving Repr, DecidableEq

/-- The segments of a format; `pending` is the directive being read. -/
def segmentsFrom : (pending : Option Directive) → List Char → List Segment
  | none, [] => []
  | some directive, [] => [.unfinished directive]
  | none, c :: rest =>
      if c = '%' then segmentsFrom (some .start) rest
      else .literal c :: segmentsFrom none rest
  | some directive, c :: rest =>
      match directive.read c with
      | some directive => segmentsFrom (some directive) rest
      | none => .directive directive c :: segmentsFrom none rest

/-- The segments of a format. -/
def segments (format : List Char) : List Segment :=
  segmentsFrom none format

/-! ## Verbs -/

/-- The one thing that cannot be shown: a number with more decimal places than
a word of 16 bits counts. -/
inductive Fault where
  | precisionOutOfRange
  deriving Repr, DecidableEq

/-- The greatest number of decimal places. -/
def maxDecimalPlaces : Nat := 65535

/-- The word for the type of a datum. -/
def kindName : Datum → Option String
  | .nil => none
  | .bool _ => some "bool"
  | .number _ => some "float64"
  | .text _ => some "string"
  | .seq _ => some "slice"
  | .map _ _ => some "map"
  | .record => some "struct"

/-- The text of a verb that does not fit its argument. -/
def badVerb (verb : Char) (argument : Datum) : List Char :=
  match kindName argument with
  | none => '%' :: '!' :: verb :: "(<nil>)".toList
  | some kind =>
      '%' :: '!' :: verb :: '(' :: kind.toList ++ '=' :: argument.toText.toList ++ [')']

/-- Two hexadecimal digits. -/
def hexByte (byte : UInt8) : List Char :=
  let digits := Text.hexDigits byte.toNat
  List.replicate (2 - digits.length) '0' ++ digits

/-- The hexadecimal digits of a signed number. -/
def hexInt (n : Int) : List Char :=
  Number.signText (n < 0) ++ Text.hexDigits n.natAbs

/-- The decimal digits of a signed number. -/
def decimalInt (n : Int) : List Char :=
  Number.signText (n < 0) ++ Number.decimalDigits n.natAbs

/-- The text of an argument under a verb, before filling. -/
def verbText (verb : Char) (precision : Option Nat) (argument : Datum) :
    Except Fault (List Char) :=
  if verb = 'v' then .ok argument.toText.toList
  else if verb = 's' then
    match argument, precision with
    | .text s, some precision => .ok (s.toList.take precision)
    | _, _ => .ok argument.toText.toList
  else if verb = 'd' then
    match argument with
    | .number x =>
        if x.isFinite then .ok (decimalInt (Number.toWord x)) else .ok (badVerb verb argument)
    | _ => .ok (badVerb verb argument)
  else if verb = 'f' then
    match argument with
    | .number x =>
        let places := precision.getD 6
        if places ≤ maxDecimalPlaces then .ok (Number.renderPlaces places x)
        else .error .precisionOutOfRange
    | _ => .ok (badVerb verb argument)
  else if verb = 't' then
    match argument with
    | .bool b => .ok (boolText b).toList
    | _ => .ok (badVerb verb argument)
  else if verb = 'q' then
    match argument with
    | .text s => .ok (Text.quotedText s.toList)
    | _ => .ok (badVerb verb argument)
  else if verb = 'x' then
    match argument with
    | .number x =>
        if x.isFinite then .ok (hexInt (Number.toWord x)) else .ok (badVerb verb argument)
    | .text s => .ok (s.toUTF8.toList.flatMap hexByte)
    | _ => .ok (badVerb verb argument)
  else .ok (badVerb verb argument)

/-- Whether zeros may fill the text of an argument under a verb. -/
def isNumeric (verb : Char) (argument : Datum) : Bool :=
  (verb = 'd' || verb = 'f' || verb = 'x' || verb = 'v') && argument.number?.isSome

/-- Fill a text up to a width: on the right, with zeros behind the sign, or on the
left. -/
def fill (left zero numeric : Bool) (width : Nat) (text : List Char) : List Char :=
  let missing := width - text.length
  if left then text ++ List.replicate missing ' '
  else if zero && numeric then
    match text with
    | '-' :: digits => '-' :: List.replicate missing '0' ++ digits
    | digits => List.replicate missing '0' ++ digits
  else List.replicate missing ' ' ++ text

/-! ## Showing a format -/

/-- The greatest width and precision. -/
def maxWidth : Nat := 1000000

/-- A width or precision that is not too large. -/
def admitted (size : Option Nat) : Option Nat :=
  size.filter (· ≤ maxWidth)

/-- The marks for a width and a precision that are too large. -/
def Directive.marks (directive : Directive) : List Char :=
  (if directive.width.any (maxWidth < ·) then "%!(BADWIDTH)".toList else []) ++
    if directive.precision.any (maxWidth < ·) then "%!(BADPREC)".toList else []

/-- The text of an argument under a directive. -/
def Directive.render (directive : Directive) (verb : Char) (argument : Datum) :
    Except Fault (List Char) := do
  let text ← verbText verb (admitted directive.precision) argument
  .ok (fill directive.left directive.zero (isNumeric verb argument)
    ((admitted directive.width).getD 0) text)

/-- Show segments with the arguments that are left. -/
def renderSegments : List Segment → (arguments : List Datum) → Except Fault (List Char)
  | [], _ => .ok []
  | .literal c :: rest, arguments => do
      let after ← renderSegments rest arguments
      .ok (c :: after)
  | .unfinished directive :: rest, arguments => do
      let after ← renderSegments rest arguments
      .ok (directive.marks ++ "%!(NOVERB)".toList ++ after)
  | .directive directive verb :: rest, arguments =>
      if verb = '%' then do
        let after ← renderSegments rest arguments
        .ok (directive.marks ++ '%' :: after)
      else
        match arguments with
        | [] => do
            let after ← renderSegments rest []
            .ok (directive.marks ++ '%' :: '!' :: verb :: "(MISSING)".toList ++ after)
        | argument :: arguments => do
            let text ← directive.render verb argument
            let after ← renderSegments rest arguments
            .ok (directive.marks ++ text ++ after)

/-- The text of a format with its arguments. -/
def format (text : List Char) (arguments : List Datum) : Except Fault (List Char) :=
  renderSegments (segments text) arguments

end FieldRules.Format

namespace FieldRules

/-- The text of a format with its arguments, as a string. -/
def sprintf (format : String) (arguments : List Datum) : Except Format.Fault String :=
  (Format.format format.toList arguments).map .ofList

end FieldRules
