/-!
# The exact value of a double

A double is not a number, an infinity, or a rational number
`± significand · 2 ^ exponent` with a sign of its own even when it is zero.
Everything the library says about the digits of a number or about its integer
part is computed from this form in exact integer arithmetic.
-/

namespace FieldRules.Number

/-- A double, read exactly. -/
inductive Binary where
  /-- The result of an undefined operation. -/
  | notANumber
  /-- An infinity. -/
  | infinite (negative : Bool)
  /-- The rational number `± significand · 2 ^ exponent`. -/
  | finite (negative : Bool) (significand : Nat) (exponent : Int)
  deriving Repr, DecidableEq

/-- Whether a sign is the minus sign. -/
def isNegative : Float.Model.UnpackedFloat.Sign → Bool
  | .negative => true
  | .positive => false

/-- Read a double exactly. -/
def Binary.ofFloat (x : Float) : Binary :=
  match x.toModel.unpack with
  | .notANumber => .notANumber
  | .infinity sign => .infinite (isNegative sign)
  | .zero sign => .finite (isNegative sign) 0 0
  | .finite sign significand exponent _ => .finite (isNegative sign) significand exponent

/-- Attach a sign to a magnitude. -/
def signed (negative : Bool) (magnitude : Nat) : Int :=
  if negative then -(magnitude : Int) else magnitude

/-- The magnitude `significand · 2 ^ exponent` without its fractional part. -/
def wholeMagnitude (significand : Nat) (exponent : Int) : Nat :=
  if 0 ≤ exponent then significand * Nat.pow 2 exponent.toNat
  else significand / Nat.pow 2 exponent.natAbs

/-- Whether `significand · 2 ^ exponent` is an integer. -/
def isWholeMagnitude (significand : Nat) (exponent : Int) : Bool :=
  0 ≤ exponent || significand % Nat.pow 2 exponent.natAbs = 0

/-- The integer part of a double, toward zero; infinities and the undefined
double have none. -/
def truncate? (x : Float) : Option Int :=
  match Binary.ofFloat x with
  | .finite negative significand exponent =>
      some (signed negative (wholeMagnitude significand exponent))
  | _ => none

/-- The integer that a double is equal to, if there is one. -/
def whole? (x : Float) : Option Int :=
  match Binary.ofFloat x with
  | .finite negative significand exponent =>
      if isWholeMagnitude significand exponent then
        some (signed negative (wholeMagnitude significand exponent))
      else none
  | _ => none

/-! ## Words of 64 bits -/

/-- The number of signed words of 64 bits that are negative. -/
def wordBound : Int := 0x8000000000000000

/-- The least signed word of 64 bits. -/
def minWord : Int := -wordBound

/-- The greatest signed word of 64 bits. -/
def maxWord : Int := wordBound - 1

/-- The signed word nearest to an integer. -/
def clampWord (n : Int) : Int :=
  max minWord (min maxWord n)

/-- The signed word nearest to the integer part of a double; the undefined
double goes to zero. -/
def toWord (x : Float) : Int :=
  match Binary.ofFloat x with
  | .notANumber => 0
  | .infinite negative => if negative then minWord else maxWord
  | .finite negative significand exponent =>
      clampWord (signed negative (wholeMagnitude significand exponent))

/-- The double nearest to an integer; of two equally near, the one with the
even significand. -/
def ofInt (n : Int) : Float :=
  .ofModel (.ofInt n)

/-- The double nearest to a natural number. -/
def ofNat (n : Nat) : Float :=
  ofInt n

/-- The undefined double. -/
def undefined : Float := 0.0 / 0.0

/-- Positive infinity. -/
def infinity : Float := 1.0 / 0.0

end FieldRules.Number
