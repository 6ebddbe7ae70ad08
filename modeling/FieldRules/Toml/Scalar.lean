import FieldRules.Number.Numeral
import FieldRules.Text.Hex
import FieldRules.Text.Word
import FieldRules.Toml.Value

/-!
# TOML numbers, dates and times

The values that are written without quotes and brackets.  Each reader here takes
a whole text.
-/

namespace FieldRules.Toml

open FieldRules.Number (Numeral digitsValue readSign signed)
open FieldRules.Text (separate hexValue? hexNumber?)

/-! ## Runs of digits -/

/-- A run of digits with single underscores between them; the underscores are
left out. -/
def digitRun? (isDigit : Char → Bool) (text : List Char) : Option (List Char) :=
  let groups := separate '_' text
  if groups.all fun group => !group.isEmpty && group.all isDigit then some groups.flatten
  else none

/-- A run of decimal digits that does not start with an idle zero. -/
def wholeRun? (text : List Char) : Option (List Char) :=
  match digitRun? Char.isDigit text with
  | some ('0' :: _ :: _) => none
  | run => run

/-- The value of digits with a base of at most sixteen. -/
def baseValue? (base : Nat) (text : List Char) : Option Nat := do
  let digits ← digitRun? (fun c => (hexValue? c).any (· < base)) text
  digits.foldlM (fun value c => (hexValue? c).map (base * value + ·)) 0

/-! ## Numbers -/

/-- Integers have to fit into a word of 128 bits. -/
def isRepresentable (n : Int) : Bool :=
  -((Nat.pow 2 127 : Nat) : Int) ≤ n && n < (Nat.pow 2 128 : Nat)

/-- An integer: a sign and decimal digits, or digits of another base. -/
def integer? (text : List Char) : Option Int :=
  match text with
  | '0' :: 'x' :: digits => (baseValue? 16 digits).map .ofNat
  | '0' :: 'o' :: digits => (baseValue? 8 digits).map .ofNat
  | '0' :: 'b' :: digits => (baseValue? 2 digits).map .ofNat
  | _ =>
      let (negative, unsigned) := readSign text
      (wholeRun? unsigned).map fun digits => signed negative (digitsValue digits)

/-- A power of ten behind its letter. -/
def power? (text : List Char) : Option Int :=
  let (negative, unsigned) := readSign text
  (digitRun? Char.isDigit unsigned).map fun digits => signed negative (digitsValue digits)

/-- The letters that introduce a power of ten. -/
def isPowerMark (c : Char) : Bool :=
  c = 'e' || c = 'E'

/-- A number with a fraction, a power of ten or both. -/
def decimal? (text : List Char) : Option Float := do
  let (negative, unsigned) := readSign text
  let mantissa := unsigned.takeWhile (!isPowerMark ·)
  let power ← (match unsigned.dropWhile (!isPowerMark ·) with
    | [] => if mantissa.contains '.' then some 0 else none
    | _ :: power => power? power)
  let whole ← wholeRun? (mantissa.takeWhile (· ≠ '.'))
  let fraction ← (match mantissa.dropWhile (· ≠ '.') with
    | [] => some []
    | _ :: fraction => digitRun? Char.isDigit fraction)
  let x := (Numeral.ofParts negative whole fraction power).toFloat
  if x.isFinite then some x else none

/-- A floating point number. -/
def float? (text : List Char) : Option Float :=
  let (negative, unsigned) := readSign text
  if unsigned = "inf".toList then some (if negative then -Number.infinity else Number.infinity)
  else if unsigned = "nan".toList then some Number.undefined
  else decimal? text

/-! ## Dates and times -/

/-- The value of two digits. -/
def twoDigits? : List Char → Option Nat
  | [a, b] => if a.isDigit && b.isDigit then some (digitsValue [a, b]) else none
  | _ => none

/-- The number of days of a month. -/
def daysIn (year month : Nat) : Nat :=
  if month = 2 then
    if year % 4 = 0 && (year % 100 ≠ 0 || year % 400 = 0) then 29 else 28
  else if month = 4 || month = 6 || month = 9 || month = 11 then 30
  else 31

/-- Whether a text is a date `year-month-day` of the calendar. -/
def isDate (text : List Char) : Bool :=
  match separate '-' text with
  | [year, month, day] =>
      year.length = 4 && year.all Char.isDigit &&
        ((twoDigits? month).any fun m =>
          (twoDigits? day).any fun d =>
            1 ≤ m && m ≤ 12 && 1 ≤ d && d ≤ daysIn (digitsValue year) m)
  | _ => false

/-- The normal form of seconds: at most nine digits behind the point, without
zeros at the end. -/
def seconds? (text : List Char) : Option (List Char) :=
  let whole := text.takeWhile (· ≠ '.')
  if (twoDigits? whole).any (· ≤ 60) then
    match text.dropWhile (· ≠ '.') with
    | [] => some whole
    | _ :: fraction =>
        if !fraction.isEmpty && fraction.all Char.isDigit then
          let kept := ((fraction.take 9).reverse.dropWhile (· = '0')).reverse
          some (whole ++ '.' :: kept)
        else none
  else none

/-- The normal form of a time `hour:minute` or `hour:minute:seconds`. -/
def time? (text : List Char) : Option (List Char) :=
  let valid (hour minute : List Char) :=
    (twoDigits? hour).any (· < 24) && (twoDigits? minute).any (· < 60)
  match separate ':' text with
  | [hour, minute] => if valid hour minute then some text else none
  | [hour, minute, seconds] =>
      if valid hour minute then
        (seconds? seconds).map fun seconds => hour ++ ':' :: minute ++ ':' :: seconds
      else none
  | _ => none

/-- The normal form of an offset from universal time. -/
def offset? : List Char → Option (List Char)
  | [] => some []
  | ['Z'] => some ['Z']
  | ['z'] => some ['Z']
  | sign :: rest =>
      if sign = '+' || sign = '-' then
        match separate ':' rest with
        | [hour, minute] =>
            if (twoDigits? hour).any (· < 24) && (twoDigits? minute).any (· < 60) then
              some (sign :: rest)
            else none
        | _ => none
      else none

/-- The characters that a time is made of. -/
def isTimeChar (c : Char) : Bool :=
  c.isDigit || c = ':' || c = '.'

/-- The length of a date. -/
def dateLength : Nat := 10

/-- The normal form of a date, a time, or a date with a time and perhaps an
offset. -/
def date? (text : List Char) : Option (List Char) :=
  if isDate (text.take dateLength) then
    match text.drop dateLength with
    | [] => some text
    | mark :: rest =>
        if mark = 'T' || mark = 't' || mark = ' ' then do
          let time ← time? (rest.takeWhile isTimeChar)
          let offset ← offset? (rest.dropWhile isTimeChar)
          some (text.take dateLength ++ 'T' :: time ++ offset)
        else none
  else time? text

/-! ## Scalars -/

/-- The value of a text without quotes and brackets. -/
def scalar? (text : List Char) : Option Value :=
  if text = "true".toList then some (.bool true)
  else if text = "false".toList then some (.bool false)
  else
    match integer? text with
    | some n => if isRepresentable n then some (.integer n) else none
    | none =>
        match float? text with
        | some x => some (.float x)
        | none => (date? text).map fun date => .date (.ofList date)

/-- The characters of scalars. -/
def isScalarChar (c : Char) : Bool :=
  c.isAlphanum || c = '_' || c = '+' || c = '-' || c = '.' || c = ':'

/-- Read a scalar.  A space belongs to it where it separates a date from a time. -/
def readScalar (input : List Char) : Option (Value × List Char) :=
  let word := input.takeWhile isScalarChar
  let rest := input.dropWhile isScalarChar
  match rest with
  | ' ' :: digit :: more =>
      if isDate word && digit.isDigit then
        let time := (digit :: more).takeWhile isScalarChar
        (scalar? (word ++ ' ' :: time)).map (·, (digit :: more).dropWhile isScalarChar)
      else (scalar? word).map (·, rest)
  | _ => (scalar? word).map (·, rest)

end FieldRules.Toml
