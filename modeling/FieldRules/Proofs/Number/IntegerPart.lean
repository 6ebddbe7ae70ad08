import FieldRules.Proofs.Number.Exact

/-!
# Integer parts of doubles

A finite double is a rational number, and its integer part is that number without its
fraction.  Integer parts are taken as signed words of 64 bits, so those that are no
words give way to the nearest word.

The remainder of two integers that doubles are equal to is again such an integer: it
has no more digits than one of them before the zeros that both have at their ends.
-/

namespace FieldRules.Number

open Float.Model
open Float.Model.UnpackedFloat

variable {x : Float} {q : ℚ} {n : ℤ} {significand : Nat} {exponent : Int}

/-! ## Values -/

/-- The rational number that a finite double is. -/
def rational? (x : Float) : Option ℚ :=
  match Binary.ofFloat x with
  | .finite negative significand exponent =>
      some ((signed negative significand : ℚ) * 2 ^ exponent)
  | _ => none

/-- A rational number without its fraction. -/
def integerPart (q : ℚ) : ℤ :=
  if q < 0 then ⌈q⌉ else ⌊q⌋

@[simp]
theorem integerPart_intCast (n : ℤ) : integerPart n = n := by
  simp [integerPart]

theorem exists_of_rational? (value : rational? x = some q) :
    ∃ negative significand exponent,
      Binary.ofFloat x = .finite negative significand exponent ∧
        (signed negative significand : ℚ) * 2 ^ exponent = q := by
  rw [rational?] at value
  split at value
  · rename_i negative significand exponent parts
    exact ⟨negative, significand, exponent, parts, Option.some.inj value⟩
  · cases value

/-- Exactly the finite doubles are rational numbers. -/
theorem exists_rational?_iff : (∃ q, rational? x = some q) ↔ x.isFinite = true := by
  have modelled : x.isFinite = x.toModel.unpack.isFinite := rfl
  rw [modelled, rational?, Binary.ofFloat]
  cases x.toModel.unpack with
  | zero sign => exact iff_of_true ⟨_, rfl⟩ rfl
  | finite sign significand exponent positive => exact iff_of_true ⟨_, rfl⟩ rfl
  | infinity sign =>
      apply iff_of_false
      · rintro ⟨q, value⟩
        cases value
      · exact Bool.false_ne_true
  | notANumber =>
      apply iff_of_false
      · rintro ⟨q, value⟩
        cases value
      · exact Bool.false_ne_true

/-! ## Integer parts -/

theorem floor_magnitude (significand : Nat) (exponent : Int) :
    ⌊(significand : ℚ) * 2 ^ exponent⌋ = wholeMagnitude significand exponent := by
  rw [wholeMagnitude]
  split_ifs with whole
  · rcases Int.eq_ofNat_of_zero_le whole with ⟨places, rfl⟩
    rw [zpow_natCast]
    exact_mod_cast Int.floor_natCast (R := ℚ) (significand * 2 ^ places)
  · have places : exponent = -(exponent.natAbs : Int) := by omega
    have quotient : (significand : ℚ) * 2 ^ exponent =
        ((significand : ℤ) : ℚ) / ((2 ^ exponent.natAbs : Nat) : ℚ) := by
      rw [places, zpow_neg, zpow_natCast, Int.natAbs_neg, Int.natAbs_natCast, div_eq_mul_inv]
      push_cast
      rfl
    rw [quotient, Rat.floor_intCast_div_natCast]
    rfl

/-- The integer part of a signed magnitude is its whole part with the same sign. -/
theorem integerPart_signed (negative : Bool) (significand : Nat) (exponent : Int) :
    integerPart ((signed negative significand : ℚ) * 2 ^ exponent) =
      signed negative (wholeMagnitude significand exponent) := by
  have nonnegative : (0 : ℚ) ≤ significand * 2 ^ exponent := by positivity
  have floor := floor_magnitude significand exponent
  cases negative with
  | false =>
      simp only [signed, Bool.false_eq_true, if_false, Int.cast_natCast]
      rw [integerPart, if_neg (not_lt.mpr nonnegative), floor]
  | true =>
      simp only [signed, if_true, Int.cast_neg, Int.cast_natCast, neg_mul]
      rw [integerPart]
      split_ifs with below
      · rw [Int.ceil_neg, floor]
      · have zero : (significand : ℚ) * 2 ^ exponent = 0 := by linarith
        rw [← floor, zero]
        simp

theorem toWord_eq_clampWord (value : rational? x = some q) :
    toWord x = clampWord (integerPart q) := by
  rcases exists_of_rational? value with ⟨negative, significand, exponent, parts, rfl⟩
  rw [toWord, parts, integerPart_signed]

theorem clampWord_eq_self (notLow : minWord ≤ n) (notHigh : n ≤ maxWord) : clampWord n = n := by
  rw [clampWord, min_eq_right notHigh, max_eq_right notLow]

theorem clampWord_eq_self_iff : clampWord n = n ↔ minWord ≤ n ∧ n ≤ maxWord := by
  constructor
  · intro kept
    rw [← kept]
    exact ⟨le_max_left _ _, max_le (by decide) (min_le_left _ _)⟩
  · rintro ⟨notLow, notHigh⟩
    exact clampWord_eq_self notLow notHigh

theorem clampWord_eq_zero_iff : clampWord n = 0 ↔ n = 0 := by
  simp only [clampWord, minWord, maxWord, wordBound]
  omega

/-- The integer part of a double fits. -/
theorem fits_integerPart (value : rational? x = some q) : Fits (integerPart q).natAbs := by
  rcases exists_of_rational? value with ⟨negative, significand, exponent, parts, rfl⟩
  rcases bounds_of_ofFloat parts with ⟨short, notHigh⟩
  rw [integerPart_signed, natAbs_signed]
  exact fits_wholeMagnitude short notHigh

/-! ## Integers as doubles -/

theorem magnitude_of_isWholeMagnitude (whole : isWholeMagnitude significand exponent = true) :
    (significand : ℚ) * 2 ^ exponent = wholeMagnitude significand exponent := by
  rw [isWholeMagnitude, Bool.or_eq_true, decide_eq_true_iff, decide_eq_true_iff] at whole
  rw [wholeMagnitude]
  split_ifs with nonnegative
  · rcases Int.eq_ofNat_of_zero_le nonnegative with ⟨places, rfl⟩
    rw [zpow_natCast]
    exact_mod_cast rfl
  · have divides : Nat.pow 2 exponent.natAbs ∣ significand :=
      Nat.dvd_of_mod_eq_zero (whole.resolve_left nonnegative)
    have places : exponent = -(exponent.natAbs : Int) := by omega
    have power : ((Nat.pow 2 exponent.natAbs : Nat) : ℚ) = 2 ^ exponent.natAbs := by
      exact_mod_cast rfl
    rw [Nat.cast_div divides (by simp), places, zpow_neg, zpow_natCast, Int.natAbs_neg,
      Int.natAbs_natCast, div_eq_mul_inv, power]

/-- A double that is equal to an integer is this integer as a rational number. -/
theorem rational?_of_whole? (whole : whole? x = some n) : rational? x = some (n : ℚ) := by
  rw [whole?] at whole
  rw [rational?]
  cases parts : Binary.ofFloat x with
  | finite negative significand exponent =>
      rw [parts] at whole
      simp only at whole
      split_ifs at whole with integral
      cases whole
      have magnitude := magnitude_of_isWholeMagnitude integral
      cases negative <;> simp [signed, magnitude]
  | infinite negative =>
      rw [parts] at whole
      cases whole
  | notANumber =>
      rw [parts] at whole
      cases whole

theorem rational?_ofInt (fits : Fits n.natAbs) : rational? (ofInt n) = some (n : ℚ) :=
  rational?_of_whole? (whole?_ofInt fits).1

/-- A word is read as the undefined double only if its exponent is the greatest and its
mantissa is not zero. -/
theorem unpack_packComponents_ne_notANumber (sign : Sign) {exponent : BitVec 11}
    {mantissa : BitVec 52} (defined : exponent = -1#11 → mantissa = 0#52) :
    UnpackedFloat.unpack .binary64 (packComponents .binary64 sign exponent mantissa) ≠
      .notANumber := by
  rw [UnpackedFloat.unpack]
  simp only [unpackMantissa_packComponents, unpackExponent_packComponents]
  split_ifs with special zero
  · simp
  · exact absurd (defined special) zero
  · simp
  · simp
  · simp

/-- Only the undefined double is packed as such. -/
theorem eq_notANumber_of_unpack_pack {unpacked : UnpackedFloat}
    (undefined : (Float.Model.pack unpacked).unpack = .notANumber) : unpacked = .notANumber := by
  have undefined : UnpackedFloat.unpack .binary64 (UnpackedFloat.pack .binary64 unpacked) =
      .notANumber := undefined
  cases unpacked with
  | notANumber => rfl
  | infinity sign => exact absurd undefined (unpack_packComponents_ne_notANumber sign fun _ => rfl)
  | zero sign => exact absurd undefined (unpack_packComponents_ne_notANumber sign fun _ => rfl)
  | finite sign significand exponent positive =>
      rw [UnpackedFloat.pack] at undefined
      simp only at undefined
      split_ifs at undefined with tooLarge normal
      · exact absurd undefined (unpack_packComponents_ne_notANumber sign fun _ => rfl)
      · refine absurd undefined (unpack_packComponents_ne_notANumber sign fun special => ?_)
        have biased := congrArg BitVec.toNat special
        have inRange : ¬2 ^ 11 ≤ (exponent + Format.binary64.exponentBias + 52).toNat + 1 :=
          tooLarge
        simp at biased
        omega
      · refine absurd undefined (unpack_packComponents_ne_notANumber sign fun special => ?_)
        exact absurd special (by decide)

theorem round_ne_notANumber (sign : Sign) (significand : Nat) (exponent : Int) :
    UnpackedFloat.round .binary64 sign significand exponent ≠ .notANumber := by
  simp only [UnpackedFloat.round, roundWithAccuracy]
  split_ifs <;> simp

/-- No integer goes to the undefined double. -/
theorem isNaN_ofInt (n : ℤ) : (ofInt n).isNaN = false := by
  have defined : UnpackedFloat.ofInt .binary64 n ≠ .notANumber := by
    rw [UnpackedFloat.ofInt, UnpackedFloat.normalize]
    cases compare n 0 with
    | lt => exact round_ne_notANumber _ _ _
    | eq => simp
    | gt => exact round_ne_notANumber _ _ _
  change (Float.Model.pack (UnpackedFloat.ofInt .binary64 n)).unpack.isNaN = false
  cases packed : (Float.Model.pack (UnpackedFloat.ofInt .binary64 n)).unpack with
  | notANumber => exact absurd (eq_notANumber_of_unpack_pack packed) defined
  | _ => rfl

/-! ## Remainders -/

/-- Of two numbers that fit, the remainder fits. -/
theorem Fits.mod {m n : Nat} (dividend : Fits m) (divisor : Fits n) : Fits (m % n) := by
  rcases dividend.exists_eq with ⟨digits, zeros, short, few, rfl⟩
  rcases divisor.exists_eq with ⟨digits', zeros', short', few', rfl⟩
  -- the zeros that both numbers have at their ends are those of the remainder, too
  rcases Nat.le_total zeros zeros' with more | fewer
  · rcases Nat.exists_eq_add_of_le more with ⟨extra, rfl⟩
    have scaled : digits * 2 ^ zeros % (digits' * 2 ^ (zeros + extra)) =
        digits % (digits' * 2 ^ extra) * 2 ^ zeros := by
      rw [Nat.add_comm zeros, Nat.pow_add, ← Nat.mul_assoc, Nat.mul_mod_mul_right]
    exact ⟨_, zeros, (Nat.mod_le _ _).trans_lt short, few, scaled⟩
  · rcases Nat.exists_eq_add_of_le fewer with ⟨extra, rfl⟩
    rcases Nat.eq_zero_or_pos digits' with rfl | positive
    · rw [Nat.zero_mul, Nat.mod_zero]
      exact dividend
    · have scaled : digits * 2 ^ (zeros' + extra) % (digits' * 2 ^ zeros') =
          digits * 2 ^ extra % digits' * 2 ^ zeros' := by
        rw [Nat.add_comm zeros', Nat.pow_add, ← Nat.mul_assoc, Nat.mul_mod_mul_right]
      exact ⟨_, zeros', (Nat.mod_lt _ positive).trans short', few', scaled⟩

/-- The greatest word has too many digits for a double. -/
theorem natAbs_ne_maxWord (fits : Fits n.natAbs) : n.natAbs ≠ 2 ^ 63 - 1 := by
  rcases fits.exists_eq with ⟨digits, zeros, short, -, same⟩
  intro greatest
  rw [greatest] at same
  cases zeros with
  | zero => omega
  | succ zeros =>
      have even : digits * 2 ^ (zeros + 1) = 2 * (digits * 2 ^ zeros) := by ring
      omega

/-- A dividend that is smaller than the divisor is the remainder. -/
theorem tmod_eq_self {dividend divisor : ℤ} (smaller : dividend.natAbs < divisor.natAbs) :
    dividend.tmod divisor = dividend := by
  have unsigned : dividend.tmod divisor = dividend.tmod divisor.natAbs := by
    rcases Int.natAbs_eq divisor with same | same
    · rw [← same]
    · rw [same, Int.tmod_neg, Int.natAbs_neg, Int.natAbs_natCast]
  rcases Int.le_total 0 dividend with nonnegative | nonpositive
  · rw [unsigned, Int.tmod_eq_of_lt nonnegative (by omega)]
  · have opposite : (-dividend).tmod divisor.natAbs = -dividend :=
      Int.tmod_eq_of_lt (by omega) (by omega)
    rw [Int.neg_tmod] at opposite
    rw [unsigned]
    exact Int.neg_inj.mp opposite

/-- The dividend is a word other than the least, or both are words. -/
def RemainderInWords (dividend divisor : ℤ) : Prop :=
  dividend.natAbs < 2 ^ 63 ∨
    dividend = minWord ∧ minWord ≤ divisor ∧ divisor ≤ maxWord

/-- Giving way to the nearest word leaves these remainders alone: a divisor that is no
word is greater than the dividend before and afterwards. -/
theorem tmod_clampWord {dividend divisor : ℤ} (fits : Fits dividend.natAbs)
    (inWords : RemainderInWords dividend divisor) :
    (clampWord dividend).tmod (clampWord divisor) = dividend.tmod divisor := by
  have notGreatest := natAbs_ne_maxWord fits
  rcases inWords with small | ⟨rfl, notLow, notHigh⟩
  · have kept : clampWord dividend = dividend := by
      apply clampWord_eq_self
      · simp only [minWord, wordBound]
        omega
      · simp only [maxWord, wordBound]
        omega
    rw [kept]
    by_cases isWord : minWord ≤ divisor ∧ divisor ≤ maxWord
    · rw [clampWord_eq_self isWord.1 isWord.2]
    · have greater : dividend.natAbs < (clampWord divisor).natAbs ∧
          dividend.natAbs < divisor.natAbs := by
        simp only [clampWord, minWord, maxWord, wordBound] at isWord ⊢
        omega
      rw [tmod_eq_self greater.1, tmod_eq_self greater.2]
  · rw [clampWord_eq_self notLow notHigh, clampWord_eq_self (by decide) (by decide)]

end FieldRules.Number
