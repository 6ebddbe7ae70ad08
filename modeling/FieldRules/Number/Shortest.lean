import FieldRules.Number.Binary

/-!
# The shortest decimal that reads back

The decimal numbers that round to a given double form an interval around it,
whose ends belong to it exactly when the significand of the double is even.
The shortest decimal is the one on the coarsest grid of multiples of a power of
ten that has a point in this interval; of several such points it is the nearest
to the double.  Numbers are written positionally, whatever their size.
-/

namespace FieldRules.Number

/-! ## Rounding intervals -/

/-- The numbers that round to one double, in units of `unit.1 / unit.2`:
from `lower` to `upper` around `value`, the ends included when `closed`. -/
structure Interval where
  value : Nat
  lower : Nat
  upper : Nat
  closed : Bool
  unit : Nat × Nat
  deriving Repr

/-- The significand of the smallest double of each binade. -/
def binadeStart : Nat := Nat.pow 2 52

/-- The least exponent of a double. -/
def minExponent : Int := -1074

/-- The numbers that round to `significand · 2 ^ exponent`, in quarters of its
last place.  Below the first double of a binade the places are half as wide. -/
def Interval.ofBinary (significand : Nat) (exponent : Int) : Interval where
  value := 4 * significand
  lower :=
    if significand = binadeStart && minExponent < exponent then 4 * significand - 1
    else 4 * significand - 2
  upper := 4 * significand + 2
  closed := significand % 2 = 0
  unit :=
    let scale := exponent - 2
    if 0 ≤ scale then (Nat.pow 2 scale.toNat, 1) else (1, Nat.pow 2 scale.natAbs)

/-- The power of ten `10 ^ exponent` as a quotient. -/
def powerOfTen (exponent : Int) : Nat × Nat :=
  if 0 ≤ exponent then (Nat.pow 10 exponent.toNat, 1) else (1, Nat.pow 10 exponent.natAbs)

/-- Whether the decimal `digits · 10 ^ exponent` lies in an interval. -/
def Interval.contains (interval : Interval) (digits : Nat) (exponent : Int) : Bool :=
  let power := powerOfTen exponent
  let point := digits * power.1 * interval.unit.2
  let bound (n : Nat) := n * interval.unit.1 * power.2
  if interval.closed then
    bound interval.lower ≤ point && point ≤ bound interval.upper
  else
    bound interval.lower < point && point < bound interval.upper

/-- The multiple of `10 ^ exponent` directly below the value, in that unit, and
whether the multiple above is at least as near. -/
def Interval.neighbours (interval : Interval) (exponent : Int) : Nat × Bool :=
  let power := powerOfTen exponent
  let numerator := interval.value * interval.unit.1 * power.2
  let denominator := interval.unit.2 * power.1
  let below := numerator / denominator
  (below, decide (denominator ≤ 2 * (numerator - below * denominator)))

/-- The point of the grid of `10 ^ exponent` that lies in the interval, the
nearer one where there are two neighbours. -/
def Interval.gridPoint? (interval : Interval) (exponent : Int) : Option Nat :=
  let (below, aboveIsNearer) := interval.neighbours exponent
  let first := if aboveIsNearer then below + 1 else below
  let second := if aboveIsNearer then below else below + 1
  if interval.contains first exponent then some first
  else if interval.contains second exponent then some second
  else none

/-! ## Digits -/

/-- The decimal digits of a natural number. -/
def decimalDigits (n : Nat) : List Char :=
  Nat.toDigits 10 n

/-- The value of an interval without what is behind so many decimal places. -/
def Interval.raised (interval : Interval) (places : Nat) : Nat :=
  interval.value * interval.unit.1 * Nat.pow 10 places / interval.unit.2

/-- The exponent of the leading decimal digit of the value of an interval. -/
def Interval.leadingExponent (interval : Interval) : Int :=
  ((decimalDigits (interval.raised 400)).length : Int) - 401

/-- Search the grids from `10 ^ exponent` downward, `steps` of them at most. -/
def Interval.search (interval : Interval) : (steps : Nat) → (exponent : Int) → Nat × Int
  | 0, exponent => ((interval.neighbours exponent).1, exponent)
  | steps + 1, exponent =>
      match interval.gridPoint? exponent with
      | some digits => (digits, exponent)
      | none => interval.search steps (exponent - 1)

/-- The shortest decimal `digits · 10 ^ exponent` that rounds to a positive
double.  Seventeen digits tell any two doubles apart, so eighteen grids, the
first one above the leading digit, are enough. -/
def shortest (significand : Nat) (exponent : Int) : Nat × Int :=
  let interval := Interval.ofBinary significand exponent
  interval.search 18 (interval.leadingExponent + 1)

/-! ## Positional text -/

/-- Write `digits · 10 ^ exponent` positionally. -/
def positional (digits : Nat) (exponent : Int) : List Char :=
  let written := decimalDigits digits
  if 0 ≤ exponent then
    written ++ List.replicate exponent.toNat '0'
  else
    let places := exponent.natAbs
    let padded := List.replicate (places + 1 - written.length) '0' ++ written
    let whole := padded.length - places
    padded.take whole ++ '.' :: padded.drop whole

/-- A minus sign for negative numbers. -/
def signText (negative : Bool) : List Char :=
  if negative then ['-'] else []

/-- The text of a double: the fewest digits that read back, never with an
exponent and without a fraction for whole numbers. -/
def render (x : Float) : List Char :=
  match Binary.ofFloat x with
  | .notANumber => ['N', 'a', 'N']
  | .infinite negative => signText negative ++ ['i', 'n', 'f']
  | .finite negative significand exponent =>
      if significand = 0 then signText negative ++ ['0']
      else
        let (digits, power) := shortest significand exponent
        signText negative ++ positional digits power

/-- The text of a double, as a string. -/
def toText (x : Float) : String :=
  .ofList (render x)

end FieldRules.Number
