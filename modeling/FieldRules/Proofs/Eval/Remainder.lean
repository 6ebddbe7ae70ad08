import FieldRules.Eval.Basic
import FieldRules.Proofs.Number.IntegerPart
import FieldRules.Proofs.Outcome

/-!
# Remainders

The remainder of two numbers is the remainder of their integer parts, with the sign of
the dividend.  It is a double without any rounding, since it has no more digits than
the numbers themselves.  But integer parts are taken as words of 64 bits, and a number
that is no word gives way to the nearest word.  For a dividend this changes the remainder;
for a divisor it does so only where the dividend is the least word.
-/

namespace FieldRules

open Number

namespace Number

variable {x y : Float} {p q : ℚ}

theorem remainder_eq_ofInt (dividend : rational? x = some p) (divisor : rational? y = some q)
    (notZero : integerPart q ≠ 0) :
    remainder x y = ofInt ((clampWord (integerPart p)).tmod (clampWord (integerPart q))) := by
  rw [remainder, toWord_eq_clampWord dividend, toWord_eq_clampWord divisor]
  exact if_neg (mt clampWord_eq_zero_iff.mp notZero)

/-- Exactly a divisor without integer part makes the remainder undefined. -/
theorem isNaN_remainder_iff (dividend : rational? x = some p) (divisor : rational? y = some q) :
    (remainder x y).isNaN = true ↔ integerPart q = 0 := by
  by_cases zero : integerPart q = 0
  · have undefined : remainder x y = undefined := by
      rw [remainder, toWord_eq_clampWord divisor]
      exact if_pos (clampWord_eq_zero_iff.mpr zero)
    rw [undefined]
    exact iff_of_true (by decide) zero
  · rw [remainder_eq_ofInt dividend divisor zero, isNaN_ofInt]
    exact iff_of_false Bool.false_ne_true zero

theorem rational?_remainder (dividend : rational? x = some p) (divisor : rational? y = some q)
    (notZero : integerPart q ≠ 0) (inWords : RemainderInWords (integerPart p) (integerPart q)) :
    rational? (remainder x y) = some ((integerPart p).tmod (integerPart q) : ℚ) := by
  have fits : Fits ((integerPart p).tmod (integerPart q)).natAbs := by
    rw [Int.natAbs_tmod]
    exact (fits_integerPart dividend).mod (fits_integerPart divisor)
  rw [remainder_eq_ofInt dividend divisor notZero,
    tmod_clampWord (fits_integerPart dividend) inWords, rational?_ofInt fits]

end Number

variable [RegexLibrary]

/-- The remainder of two finite numbers is undefined exactly if the divisor has no
integer part.  Otherwise it is the remainder of the words nearest to the integer parts,
and it is exactly the remainder of the integer parts with the sign of the dividend if
the dividend is less than `2 ^ 63` in magnitude, or is `-2 ^ 63` while the divisor is a
word, too. -/
theorem remainder_of_integer_parts {scope : Scope} {element : Element} {left right : Node}
    {x y : Float} {p q : ℚ} (leftValue : left.eval scope element = .ok (.number x))
    (rightValue : right.eval scope element = .ok (.number y))
    (dividend : rational? x = some p) (divisor : rational? y = some q) :
    ∃ z, (Node.binary .rem left right).eval scope element = .ok (.number z) ∧
      (z.isNaN = true ↔ integerPart q = 0) ∧
      (integerPart q ≠ 0 →
        z = ofInt ((clampWord (integerPart p)).tmod (clampWord (integerPart q))) ∧
        (RemainderInWords (integerPart p) (integerPart q) →
          rational? z = some ((integerPart p).tmod (integerPart q) : ℚ))) := by
  refine ⟨remainder x y, ?_, isNaN_remainder_iff dividend divisor, ?_⟩
  · rw [Node.eval, leftValue, bind_ok, rightValue, bind_ok]
    rfl
  · intro notZero
    constructor
    · exact remainder_eq_ofInt dividend divisor notZero
    · exact rational?_remainder dividend divisor notZero

end FieldRules

namespace FieldRules

open Number

attribute [local instance] RegexLibrary.empty

/-- The least word has the remainder zero by minus one, although the quotient is no
word. -/
theorem least_word_by_minus_one :
    rational? (ofInt minWord) = some (minWord : ℚ) ∧ rational? (ofInt (-1)) = some ((-1 : ℤ) : ℚ) ∧
      ∃ z, (Node.binary .rem (.number (ofInt minWord)) (.number (ofInt (-1)))).eval
          (.ofCurrent .nil) none = .ok (.number z) ∧
        z.isNaN = false ∧ rational? z = some ((0 : ℤ) : ℚ) := by
  have dividend : rational? (ofInt minWord) = some (minWord : ℚ) :=
    rational?_ofInt ⟨1, 63, by decide, by decide, by decide⟩
  have divisor : rational? (ofInt (-1)) = some ((-1 : ℤ) : ℚ) :=
    rational?_ofInt ⟨1, 0, by decide, by decide, by decide⟩
  have number (x : Float) : (Node.number x).eval (.ofCurrent .nil) none = .ok (.number x) := rfl
  rcases remainder_of_integer_parts (number _) (number _) dividend divisor with
    ⟨z, evaluated, undefined, remainder⟩
  rw [integerPart_intCast] at undefined remainder
  rw [integerPart_intCast] at remainder
  have notZero : (-1 : ℤ) ≠ 0 := by decide
  have inWords : RemainderInWords minWord (-1) := .inr ⟨rfl, by decide, by decide⟩
  refine ⟨dividend, divisor, z, evaluated, ?_, (remainder notZero).2 inWords⟩
  exact Bool.eq_false_iff.mpr (mt undefined.mp notZero)

/-- `10 ^ 19` has the remainder three by seven, but gives way to the greatest word, which
seven divides. -/
theorem remainder_of_clamped_dividend :
    rational? (ofInt 10000000000000000000) = some ((10000000000000000000 : ℤ) : ℚ) ∧
      rational? (ofInt 7) = some ((7 : ℤ) : ℚ) ∧ (10000000000000000000 : ℤ).tmod 7 = 3 ∧
      (Node.binary .rem (.number (ofInt 10000000000000000000)) (.number (ofInt 7))).eval
        (.ofCurrent .nil) none = .ok (.number (ofInt 0)) ∧
      rational? (ofInt 0) = some ((0 : ℤ) : ℚ) := by
  have dividend : rational? (ofInt 10000000000000000000) = some ((10000000000000000000 : ℤ) : ℚ) :=
    rational?_ofInt ⟨19073486328125, 19, by decide, by decide, by decide⟩
  have divisor : rational? (ofInt 7) = some ((7 : ℤ) : ℚ) :=
    rational?_ofInt ⟨7, 0, by decide, by decide, by decide⟩
  have zero : rational? (ofInt 0) = some ((0 : ℤ) : ℚ) :=
    rational?_ofInt ⟨0, 0, by decide, by decide, by decide⟩
  refine ⟨dividend, divisor, by decide, ?_, zero⟩
  have shown : remainder (ofInt 10000000000000000000) (ofInt 7) = ofInt 0 := by
    have notZero : integerPart ((7 : ℤ) : ℚ) ≠ 0 := by
      rw [integerPart_intCast]
      decide
    rw [remainder_eq_ofInt dividend divisor notZero, integerPart_intCast, integerPart_intCast]
    exact congrArg ofInt (by decide)
  exact congrArg (fun z => Except.ok (Datum.number z)) shown

end FieldRules
