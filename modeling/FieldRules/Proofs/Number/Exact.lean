import FieldRules.Number.Binary
import Mathlib

/-!
# Integers that doubles take exactly

A double has 53 binary digits and a scale.  So the integers that are equal to some
double are those whose magnitude has at most 53 binary digits up to the zeros at its
end, and is not too large.  Such an integer is equal to the double nearest to it: the
rounding shifts zeros only, and the packed words are read back as they were written.
-/

namespace FieldRules.Number

open Float.Model
open Float.Model.UnpackedFloat

variable {significand : Nat} {exponent : Int}

/-! ## Words -/

/-- A significand that fills the 53 binary digits of a double. -/
structure IsFull (significand : Nat) : Prop where
  least : 2 ^ 52 ≤ significand
  greatest : significand < 2 ^ 53

theorem IsFull.pos (full : IsFull significand) : 0 < significand :=
  Nat.lt_of_lt_of_le (by decide) full.least

theorem IsFull.log2_eq (full : IsFull significand) : significand.log2 = 52 :=
  (Nat.log2_eq_iff full.pos.ne').mpr ⟨full.least, full.greatest⟩

/-- The leading digit is left out of a word, since it is known. -/
theorem IsFull.mod_eq (full : IsFull significand) :
    2 ^ 52 + significand % 2 ^ 52 = significand := by
  have least := full.least
  have greatest := full.greatest
  omega

/-- A full significand with an exponent in range is read back from its word. -/
theorem unpack_pack_of_isFull (sign : Sign) (full : IsFull significand) (exponent : Int)
    (notLow : -1074 ≤ exponent) (notHigh : exponent ≤ 971) :
    (Float.Model.pack (.finite sign significand exponent full.pos)).unpack =
      .finite sign significand exponent full.pos := by
  rcases Int.eq_ofNat_of_zero_le (show 0 ≤ exponent + 1075 by omega) with ⟨biased, same⟩
  have biased_eq : (exponent + 1023 + 52).toNat = biased := by omega
  have inRange : ¬2 ^ 11 ≤ biased + 1 := by omega
  have kept : (BitVec.ofNat 11 biased).toNat = biased := by
    rw [BitVec.toNat_ofNat]
    omega
  have notSpecial : BitVec.ofNat 11 biased ≠ -1#11 := by
    intro special
    have := congrArg BitVec.toNat special
    rw [kept] at this
    simp at this
    omega
  have notZero : BitVec.ofNat 11 biased ≠ 0#11 := by
    intro zero
    have := congrArg BitVec.toNat zero
    rw [kept] at this
    simp at this
    omega
  have restored : (1#1 ++ BitVec.ofNat 52 significand).toNat = significand := by
    rw [BitVec.toNat_append, BitVec.toNat_ofNat, BitVec.toNat_ofNat,
      ← Nat.shiftLeft_add_eq_or_of_lt (Nat.mod_lt _ (by positivity))]
    exact full.mod_eq
  have packed : UnpackedFloat.pack .binary64 (.finite sign significand exponent full.pos) =
      packComponents .binary64 sign (BitVec.ofNat 11 biased) (BitVec.ofNat 52 significand) := by
    have normal : significand.log2 + 1 = Format.binary64.mantissaBits := by
      rw [full.log2_eq]
      rfl
    rw [UnpackedFloat.pack]
    change (if 2 ^ 11 ≤ (exponent + 1023 + 52).toNat + 1 then _
      else if significand.log2 + 1 = Format.binary64.mantissaBits then
        packComponents .binary64 sign (BitVec.ofNat 11 (exponent + 1023 + 52).toNat) _ else _) = _
    rw [biased_eq, if_neg inRange, if_pos normal]
  change UnpackedFloat.unpack .binary64 (UnpackedFloat.pack .binary64 _) = _
  rw [packed, UnpackedFloat.unpack]
  simp only [unpackMantissa_packComponents, unpackExponent_packComponents,
    unpackSign_packComponents, Sign.ofBitVec_toBitVec, notSpecial, notZero, if_false, restored, kept]
  congr 1
  change (biased : Int) - (1023 + 52) = exponent
  omega

/-! ## Rounding -/

/-- Shifting zeros out loses nothing. -/
theorem shiftRight_exact (significand shift : Nat) :
    ExtendedMantissa.mk (significand * 2 ^ shift) false false >>> shift =
      ExtendedMantissa.mk significand false false := by
  induction shift generalizing significand with
  | zero => simp [HShiftRight.hShiftRight, Nat.repeat]
  | succ shift ih =>
      have doubled : significand * 2 ^ (shift + 1) = 2 * significand * 2 ^ shift := by ring
      have shifted := ih (2 * significand)
      rw [doubled]
      change ExtendedMantissa.shiftRightOne
        (ExtendedMantissa.mk (2 * significand * 2 ^ shift) false false >>> shift) = _
      rw [shifted]
      simp [ExtendedMantissa.shiftRightOne]

/-- Zeros at its end make a number longer. -/
theorem log2_mul_two_pow {n : Nat} (notZero : n ≠ 0) (shift : Nat) :
    (n * 2 ^ shift).log2 = n.log2 + shift := by
  induction shift with
  | zero => rw [Nat.pow_zero, Nat.mul_one, Nat.add_zero]
  | succ shift ih =>
      have doubled : n * 2 ^ (shift + 1) = 2 * (n * 2 ^ shift) := by ring
      rw [doubled, Nat.log2_two_mul (by positivity), ih, Nat.add_assoc]

/-- Rounding goes to the exponent that leaves 53 digits, or to the least one. -/
theorem targetExponent_binary64 (significand : Nat) (exponent : Int) :
    Format.binary64.targetExponent (totalExponent significand exponent) =
      max (significand.log2 + exponent - 52) (-1074) := by
  simp only [Format.targetExponent, totalExponent, Format.mantissaBits, Format.minExponent]
  norm_num
  omega

theorem shiftToTargetExponent_exact (full : IsFull significand) (exponent : Int) (shift : Nat)
    (notLow : -1074 ≤ exponent + shift) :
    shiftToTargetExponent .binary64 (significand * 2 ^ shift) exponent .exact =
      (ExtendedMantissa.mk significand false false, exponent + shift) := by
  have target : Format.binary64.targetExponent
      (totalExponent (significand * 2 ^ shift) exponent) = exponent + shift := by
    rw [targetExponent_binary64, log2_mul_two_pow full.pos.ne', full.log2_eq]
    push_cast
    omega
  have amount : (exponent + shift - exponent).toNat = shift := by omega
  rw [shiftToTargetExponent, target, shiftToExponent, amount]
  exact congrArg (·, exponent + (shift : Int)) (shiftRight_exact significand shift)

theorem roundWithAccuracy_exact (sign : Sign) (full : IsFull significand) (exponent : Int)
    (shift : Nat) (notLow : -1074 ≤ exponent + shift) :
    roundWithAccuracy .binary64 sign (significand * 2 ^ shift) exponent .exact =
      .finite sign significand (exponent + shift) full.pos := by
  have first := shiftToTargetExponent_exact full exponent shift notLow
  have second := shiftToTargetExponent_exact full (exponent + shift) 0 (by simpa using notLow)
  rw [Nat.pow_zero, Nat.mul_one] at second
  rw [roundWithAccuracy, first]
  simp only [ExtendedMantissa.roundedMantissa, ExtendedMantissa.accuracy,
    Accuracy.roundToNearestEven, second]
  simp [full.pos.ne']

/-- A natural number is rounded to a full significand that is equal to it. -/
theorem round_natural (sign : Sign) {n : Nat} (full : IsFull significand)
    (same : n * 2 ^ (52 - n.log2) = significand * 2 ^ (n.log2 - 52)) :
    UnpackedFloat.round .binary64 sign n 0 =
      .finite sign significand (n.log2 - 52) full.pos := by
  have target : Format.binary64.targetExponent (totalExponent n 0) = n.log2 - 52 := by
    rw [targetExponent_binary64]
    omega
  have amount : ((0 : Int) - (n.log2 - 52)).toNat = 52 - n.log2 := by omega
  have exponent_eq : (0 : Int) - (52 - n.log2 : Nat) + (n.log2 - 52 : Nat) = n.log2 - 52 := by omega
  have rounded := roundWithAccuracy_exact sign full ((0 : Int) - (52 - n.log2 : Nat))
    (n.log2 - 52) (by omega)
  rw [UnpackedFloat.round, target, decreaseExponent, amount, Nat.shiftLeft_eq, same]
  simp only [rounded, exponent_eq]

/-! ## Exact integers -/

/-- Some double is equal to the integer. -/
def IsExact (n : Int) : Prop :=
  ∃ x : Float, whole? x = some n

/-- A natural number of at most 53 binary digits with zeros behind them. -/
structure Fits (n : Nat) : Prop where
  exists_eq : ∃ digits zeros, digits < 2 ^ 53 ∧ zeros ≤ 971 ∧ n = digits * 2 ^ zeros

theorem fits_of_lt {n : Nat} (small : n < 2 ^ 53) : Fits n :=
  ⟨n, 0, small, Nat.zero_le _, (Nat.mul_one n).symm⟩

theorem Fits.log2_le {n : Nat} (fits : Fits n) : n.log2 ≤ 1023 := by
  rcases fits.exists_eq with ⟨digits, zeros, short, few, rfl⟩
  by_cases zero : digits = 0
  · simp [zero]
  · have := (Nat.log2_lt zero).mpr short
    rw [log2_mul_two_pow zero]
    omega

/-- A number that fits is a full significand, scaled. -/
theorem Fits.exists_isFull {n : Nat} (fits : Fits n) (notZero : n ≠ 0) :
    ∃ significand, IsFull significand ∧
      n * 2 ^ (52 - n.log2) = significand * 2 ^ (n.log2 - 52) := by
  rcases fits.exists_eq with ⟨digits, zeros, short, few, same⟩
  have digitsNotZero : digits ≠ 0 := by
    rintro rfl
    exact notZero (same.trans (Nat.zero_mul _))
  have length : n.log2 = digits.log2 + zeros := by rw [same, log2_mul_two_pow digitsNotZero]
  have few : digits.log2 < 53 := (Nat.log2_lt digitsNotZero).mpr short
  have filled : IsFull (digits * 2 ^ (52 - digits.log2)) := by
    have bits : (digits * 2 ^ (52 - digits.log2)).log2 = 52 := by
      rw [log2_mul_two_pow digitsNotZero]
      omega
    rcases (Nat.log2_eq_iff (by positivity)).mp bits with ⟨least, greatest⟩
    exact ⟨least, greatest⟩
  refine ⟨digits * 2 ^ (52 - digits.log2), filled, ?_⟩
  have exponents : zeros + (52 - n.log2) = 52 - digits.log2 + (n.log2 - 52) := by omega
  rw [Nat.mul_assoc, ← Nat.pow_add, ← exponents, Nat.pow_add, ← Nat.mul_assoc, ← same]

/-- The bounds of the parts of a double. -/
theorem bounds_of_unpack {x : Float.Model} {sign : Sign} {positive : 0 < significand}
    (unpacked : x.unpack = .finite sign significand exponent positive) :
    significand < 2 ^ 53 ∧ exponent ≤ 971 := by
  rw [Float.Model.unpack, UnpackedFloat.unpack] at unpacked
  simp only at unpacked
  split_ifs at unpacked with special _ zeroExponent zeroMantissa
  · simp only [UnpackedFloat.finite.injEq] at unpacked
    rcases unpacked with ⟨-, rfl, rfl⟩
    have short := (@unpackMantissa .binary64 x.toBits.toBitVec).isLt
    rw [zeroExponent]
    constructor
    · exact short.trans (by decide)
    · decide
  · simp only [UnpackedFloat.finite.injEq] at unpacked
    rcases unpacked with ⟨-, rfl, rfl⟩
    have inWidth : (@unpackExponent .binary64 x.toBits.toBitVec).toNat < 2048 := BitVec.isLt _
    have notGreatest : (@unpackExponent .binary64 x.toBits.toBitVec).toNat ≠ 2047 := by
      intro greatest
      exact special (BitVec.eq_of_toNat_eq greatest)
    constructor
    · exact (1#1 ++ (@unpackMantissa .binary64 x.toBits.toBitVec)).isLt
    · change (_ : Int) - (1023 + 52) ≤ 971
      omega

theorem bounds_of_ofFloat {x : Float} {negative : Bool}
    (parts : Binary.ofFloat x = .finite negative significand exponent) :
    significand < 2 ^ 53 ∧ exponent ≤ 971 := by
  rw [Binary.ofFloat] at parts
  cases unpacked : x.toModel.unpack with
  | finite sign significand exponent positive =>
      rw [unpacked] at parts
      cases parts
      exact bounds_of_unpack unpacked
  | zero sign =>
      rw [unpacked] at parts
      cases parts
      decide
  | infinity sign =>
      rw [unpacked] at parts
      cases parts
  | notANumber =>
      rw [unpacked] at parts
      cases parts

/-- The double nearest to an integer that fits, read exactly. -/
theorem ofFloat_ofInt {n : Int} (fits : Fits n.natAbs) (notZero : n ≠ 0) :
    ∃ significand, IsFull significand ∧
      n.natAbs * 2 ^ (52 - n.natAbs.log2) = significand * 2 ^ (n.natAbs.log2 - 52) ∧
      Binary.ofFloat (ofInt n) =
        .finite (decide (n < 0)) significand (n.natAbs.log2 - 52) := by
  rcases fits.exists_isFull (Int.natAbs_ne_zero.mpr notZero) with ⟨significand, full, same⟩
  have short := fits.log2_le
  have unpacked (sign : Sign) := unpack_pack_of_isFull sign full (n.natAbs.log2 - 52)
    (by omega) (by omega)
  refine ⟨significand, full, same, ?_⟩
  rw [Binary.ofFloat, ofInt, Float.Model.ofInt, UnpackedFloat.ofInt,
    UnpackedFloat.normalize]
  rcases Int.lt_or_gt_of_ne notZero with negative | positive
  · have compared : compare n 0 = .lt := compare_lt_iff_lt.mpr negative
    have magnitude : (-n).toNat = n.natAbs := by omega
    simp only [compared, magnitude, round_natural _ full same, unpacked, isNegative, negative, decide_true]
  · have compared : compare n 0 = .gt := compare_gt_iff_gt.mpr positive
    have magnitude : n.toNat = n.natAbs := by omega
    have notNegative : ¬n < 0 := by omega
    simp only [compared, magnitude, round_natural _ full same, unpacked, isNegative, notNegative,
      decide_false]

theorem fits_wholeMagnitude (short : significand < 2 ^ 53) (notHigh : exponent ≤ 971) :
    Fits (wholeMagnitude significand exponent) := by
  rw [wholeMagnitude]
  split_ifs with whole
  · exact ⟨significand, exponent.toNat, short, by omega, rfl⟩
  · exact fits_of_lt ((Nat.div_le_self _ _).trans_lt short)

theorem natAbs_signed (negative : Bool) (magnitude : Nat) :
    (signed negative magnitude).natAbs = magnitude := by
  cases negative <;> simp [signed]

/-- An integer that some double is equal to fits. -/
theorem fits_of_isExact {n : Int} (exact : IsExact n) : Fits n.natAbs := by
  rcases exact with ⟨x, whole⟩
  rw [whole?] at whole
  cases parts : Binary.ofFloat x with
  | finite negative significand exponent =>
      rw [parts] at whole
      simp only at whole
      split_ifs at whole
      cases whole
      rcases bounds_of_ofFloat parts with ⟨short, notHigh⟩
      rw [natAbs_signed]
      exact fits_wholeMagnitude short notHigh
  | infinite negative =>
      rw [parts] at whole
      cases whole
  | notANumber =>
      rw [parts] at whole
      cases whole

theorem signed_natAbs (n : Int) : signed (decide (n < 0)) n.natAbs = n := by
  rw [signed]
  split_ifs with negative
  · have := of_decide_eq_true negative
    omega
  · have := of_decide_eq_false (Bool.eq_false_of_not_eq_true negative)
    omega

theorem wholeMagnitude_of_isFull {n : Nat}
    (same : n * 2 ^ (52 - n.log2) = significand * 2 ^ (n.log2 - 52)) :
    isWholeMagnitude significand (n.log2 - 52) = true ∧
      wholeMagnitude significand (n.log2 - 52) = n := by
  rw [isWholeMagnitude, wholeMagnitude]
  by_cases long : 52 ≤ n.log2
  · have nonnegative : (0 : Int) ≤ n.log2 - 52 := by omega
    have zeros : ((n.log2 : Int) - 52).toNat = n.log2 - 52 := by omega
    have none : 52 - n.log2 = 0 := by omega
    rw [none, Nat.pow_zero, Nat.mul_one] at same
    rw [if_pos nonnegative, zeros]
    exact ⟨by rw [decide_eq_true nonnegative, Bool.true_or], same.symm⟩
  · have negative : ¬(0 : Int) ≤ n.log2 - 52 := by omega
    have zeros : ((n.log2 : Int) - 52).natAbs = 52 - n.log2 := by omega
    have none : n.log2 - 52 = 0 := by omega
    rw [none, Nat.pow_zero, Nat.mul_one] at same
    rw [if_neg negative, zeros, ← same]
    exact ⟨by simp, Nat.mul_div_cancel _ (by positivity)⟩

/-- An integer that fits is equal to the double nearest to it. -/
theorem whole?_ofInt {n : Int} (fits : Fits n.natAbs) :
    whole? (ofInt n) = some n ∧ truncate? (ofInt n) = some n := by
  by_cases zero : n = 0
  · subst zero
    decide
  · rcases ofFloat_ofInt fits zero with ⟨significand, full, same, parts⟩
    rcases wholeMagnitude_of_isFull same with ⟨integral, magnitude⟩
    rw [whole?, truncate?, parts]
    simp only [integral, magnitude, if_true, signed_natAbs, and_self]

/-- If any double is equal to an integer, the nearest one is. -/
theorem isExact_iff {n : Int} : IsExact n ↔ whole? (ofInt n) = some n := by
  constructor
  · intro exact
    exact (whole?_ofInt (fits_of_isExact exact)).1
  · intro whole
    exact ⟨ofInt n, whole⟩

/-- The integers up to `2 ^ 53` in magnitude are exact. -/
theorem isExact_of_natAbs_le {n : Int} (small : n.natAbs ≤ 2 ^ 53) : IsExact n := by
  have fits : Fits n.natAbs := by
    rcases Nat.lt_or_eq_of_le small with less | same
    · exact fits_of_lt less
    · exact ⟨1, 53, by decide, by decide, same⟩
  exact ⟨ofInt n, (whole?_ofInt fits).1⟩

end FieldRules.Number
