import FieldRules.Number.Shortest

/-!
# Decimal numerals

A numeral is a signed decimal number `± digits · 10 ^ exponent`.  Three readers
produce one: number literals of expressions, the free form in which text is
turned into a number, and the numbers of documents.  All of them round to the
nearest double.
-/

namespace FieldRules.Number

/-- The decimal number `± digits · 10 ^ exponent`. -/
structure Numeral where
  negative : Bool
  digits : Nat
  exponent : Int
  deriving Repr, DecidableEq

/-- The double nearest to `digits · 10 ^ exponent`.  Magnitudes far outside the
range of doubles are settled by the position of their leading digit. -/
def nearestMagnitude (digits : Nat) (exponent : Int) : Float :=
  let leading := ((decimalDigits digits).length : Int) + exponent
  if digits = 0 || leading < -330 then 0.0
  else if 310 < leading then infinity
  else Float.ofScientific digits (exponent < 0) exponent.natAbs

/-- The double nearest to a numeral; the sign of zero is kept. -/
def Numeral.toFloat (numeral : Numeral) : Float :=
  let magnitude := nearestMagnitude numeral.digits numeral.exponent
  if numeral.negative then -magnitude else magnitude

/-! ## Runs of digits -/

/-- The value of a run of digits. -/
def digitsValue (digits : List Char) : Nat :=
  digits.foldl (fun value digit => 10 * value + (digit.toNat - '0'.toNat)) 0

/-- A leading run of digits and what follows it. -/
def spanDigits (text : List Char) : List Char × List Char :=
  (text.takeWhile Char.isDigit, text.dropWhile Char.isDigit)

/-- An optional sign: whether it is a minus sign, and what follows it. -/
def readSign : List Char → Bool × List Char
  | '-' :: rest => (true, rest)
  | '+' :: rest => (false, rest)
  | text => (false, text)

/-- The numeral with the given sign, whole part and fraction. -/
def Numeral.ofParts (negative : Bool) (whole fraction : List Char) (power : Int) : Numeral where
  negative
  digits := digitsValue (whole ++ fraction)
  exponent := power - fraction.length

/-! ## Number literals -/

/-- A point with at least one digit behind it: the digits and what follows. -/
def readFraction : List Char → List Char × List Char
  | '.' :: rest =>
      match spanDigits rest with
      | ([], _) => ([], '.' :: rest)
      | (fraction, after) => (fraction, after)
  | text => ([], text)

/-- A number literal `[+-]? digits (. digits)?` and what follows it.  A point
without digits behind it is not part of the literal. -/
def readLiteral (text : List Char) : Option (Numeral × List Char) :=
  let (negative, unsigned) := readSign text
  match spanDigits unsigned with
  | ([], _) => none
  | (whole, rest) =>
      let (fraction, after) := readFraction rest
      some (.ofParts negative whole fraction 0, after)

/-! ## Text as a number -/

/-- A power of ten `e [+-]? digits` at the end of a text, or nothing at all. -/
def readPower : List Char → Option Int
  | [] => some 0
  | e :: rest =>
      if e = 'e' || e = 'E' then
        let (negative, digits) := readSign rest
        if !digits.isEmpty && digits.all Char.isDigit then
          some (signed negative (digitsValue digits))
        else none
      else none

/-- A decimal number that fills a whole text.  Digits may be missing before or
behind the point, but not both. -/
def readDecimal (negative : Bool) (text : List Char) : Option Numeral :=
  let (whole, rest) := spanDigits text
  let (fraction, after) :=
    match rest with
    | '.' :: more => spanDigits more
    | _ => ([], rest)
  if whole.isEmpty && fraction.isEmpty then none
  else (readPower after).map fun power => .ofParts negative whole fraction power

/-- Read a whole text as a number: a decimal number with an optional power of
ten, an infinity, or the undefined double, each with an optional sign and in
letters of either case. -/
def ofText? (text : List Char) : Option Float :=
  let (negative, unsigned) := readSign text
  let word := unsigned.map Char.toLower
  let signedFloat (x : Float) := if negative then -x else x
  if word = ['i', 'n', 'f'] || word = ['i', 'n', 'f', 'i', 'n', 'i', 't', 'y'] then
    some (signedFloat infinity)
  else if word = ['n', 'a', 'n'] then some undefined
  else (readDecimal negative unsigned).map Numeral.toFloat

end FieldRules.Number
