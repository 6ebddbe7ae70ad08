import FieldRules.Number.Shortest

/-!
# A fixed number of decimal places

The exact value of a double is rounded to a given number of decimal places; a
tie goes to the even neighbour.
-/

namespace FieldRules.Number

/-- The natural number nearest to a quotient; a tie goes to the even one. -/
def roundHalfEven (numerator denominator : Nat) : Nat :=
  let below := numerator / denominator
  let rest := numerator % denominator
  if 2 * rest < denominator then below
  else if denominator < 2 * rest then below + 1
  else below + below % 2

/-- No double has more than this many decimal places. -/
def maxPlaces : Nat := 1074

/-- The magnitude `significand · 2 ^ exponent` with a number of decimal places.
Places that no double reaches are zeros. -/
def fixedMagnitude (places significand : Nat) (exponent : Int) : List Char :=
  let computed := min places maxPlaces
  let units :=
    if 0 ≤ exponent then significand * Nat.pow 2 exponent.toNat * Nat.pow 10 computed
    else roundHalfEven (significand * Nat.pow 10 computed) (Nat.pow 2 exponent.natAbs)
  positional units (-(computed : Int)) ++ List.replicate (places - computed) '0'

/-- The text of a double with a number of decimal places. -/
def renderPlaces (places : Nat) (x : Float) : List Char :=
  match Binary.ofFloat x with
  | .notANumber => ['N', 'a', 'N']
  | .infinite negative => signText negative ++ ['i', 'n', 'f']
  | .finite negative significand exponent =>
      signText negative ++ fixedMagnitude places significand exponent

end FieldRules.Number
