import FieldRules.Proofs.Number.Shortest

/-!
# Texts of different doubles

A word is determined by its sign, its exponent and its mantissa, and so is a double by
the number that is read from it.  Together with the shortest decimals, which round to
one double only, this makes writing injective: the text of a double determines the double.
-/

namespace FieldRules.Number

open Float.Model
open Float.Model.UnpackedFloat

variable {significand : Nat} {exponent : Int}

/-! ## Words -/

/-- The parts of a word as quotients and remainders. -/
theorem toNat_parts (word : BitVec Format.binary64.numBits) :
    (@unpackMantissa .binary64 word).toNat = word.toNat % 2 ^ 52 ∧
      (@unpackExponent .binary64 word).toNat = word.toNat / 2 ^ 52 % 2 ^ 11 ∧
      (@unpackSign .binary64 word).toNat = word.toNat / 2 ^ 63 % 2 := by
  simp [unpackMantissa, unpackExponent, unpackSign, Nat.shiftRight_eq_div_pow]

/-- Words with equal parts are equal. -/
theorem word_eq_of_parts {word word' : BitVec Format.binary64.numBits}
    (mantissa : @unpackMantissa .binary64 word = @unpackMantissa .binary64 word')
    (exponent : @unpackExponent .binary64 word = @unpackExponent .binary64 word')
    (sign : @unpackSign .binary64 word = @unpackSign .binary64 word') : word = word' := by
  have mantissa := congrArg BitVec.toNat mantissa
  have exponent := congrArg BitVec.toNat exponent
  have sign := congrArg BitVec.toNat sign
  rcases toNat_parts word with ⟨mantissa_eq, exponent_eq, sign_eq⟩
  rcases toNat_parts word' with ⟨mantissa_eq', exponent_eq', sign_eq'⟩
  rw [mantissa_eq, mantissa_eq'] at mantissa
  rw [exponent_eq, exponent_eq'] at exponent
  rw [sign_eq, sign_eq'] at sign
  have short : word.toNat < 2 ^ 64 := word.isLt
  have short' : word'.toNat < 2 ^ 64 := word'.isLt
  apply BitVec.eq_of_toNat_eq
  omega

/-- The number that a word stands for, by its exponent. -/
inductive Reads (word : BitVec Format.binary64.numBits) : UnpackedFloat → Prop where
  | infinity (greatest : @unpackExponent .binary64 word = -1)
      (empty : @unpackMantissa .binary64 word = 0) :
      Reads word (.infinity (Sign.ofBitVec (@unpackSign .binary64 word)))
  | notANumber (greatest : @unpackExponent .binary64 word = -1)
      (marked : @unpackMantissa .binary64 word ≠ 0) : Reads word .notANumber
  | zero (least : @unpackExponent .binary64 word = 0)
      (empty : @unpackMantissa .binary64 word = 0) :
      Reads word (.zero (Sign.ofBitVec (@unpackSign .binary64 word)))
  | subnormal (least : @unpackExponent .binary64 word = 0)
      (positive : 0 < (@unpackMantissa .binary64 word).toNat) :
      Reads word (.finite (Sign.ofBitVec (@unpackSign .binary64 word))
        (@unpackMantissa .binary64 word).toNat (-1074) positive)
  | normal (between : @unpackExponent .binary64 word ≠ 0)
      (positive : 0 < 2 ^ 52 + (@unpackMantissa .binary64 word).toNat) :
      Reads word (.finite (Sign.ofBitVec (@unpackSign .binary64 word))
        (2 ^ 52 + (@unpackMantissa .binary64 word).toNat)
        ((@unpackExponent .binary64 word).toNat - 1075) positive)

theorem reads_unpack (word : BitVec Format.binary64.numBits) :
    Reads word (UnpackedFloat.unpack .binary64 word) := by
  rw [UnpackedFloat.unpack]
  simp only
  split_ifs with greatest empty least empty
  · exact .infinity greatest empty
  · exact .notANumber greatest empty
  · exact .zero least empty
  · have read : Reads word _ := .subnormal least
      (by simpa [BitVec.toNat_pos, BitVec.pos_iff_ne_zero] using empty)
    have exponent_eq : ((@unpackExponent .binary64 word).toNat : Int) -
        (Format.binary64.exponentBias + (52 : Nat)) + 1 = -1074 := by
      rw [least]
      rfl
    simpa only [exponent_eq] using read
  · have leading : (1#1 ++ @unpackMantissa .binary64 word).toNat =
        2 ^ 52 + (@unpackMantissa .binary64 word).toNat := by
      rw [BitVec.toNat_append, ← Nat.shiftLeft_add_eq_or_of_lt (BitVec.isLt _)]
      rfl
    have read : Reads word _ := .normal least (by omega)
    have bias : ((@unpackExponent .binary64 word).toNat : Int) -
        (Format.binary64.exponentBias + (52 : Nat)) =
          (@unpackExponent .binary64 word).toNat - 1075 := rfl
    simpa only [leading, bias] using read

theorem sign_ofBitVec_injective : Function.Injective Sign.ofBitVec := by
  apply Function.LeftInverse.injective
  show ∀ b : BitVec 1, Sign.toBitVec (Sign.ofBitVec b) = b
  decide

/-- A number is read from one word only, unless it is the undefined one. -/
theorem Reads.word_eq {word word' : BitVec Format.binary64.numBits} {number : UnpackedFloat}
    (read : Reads word number) (read' : Reads word' number) (defined : number ≠ .notANumber) :
    word = word' := by
  have short : (@unpackMantissa .binary64 word).toNat < 2 ^ 52 := BitVec.isLt _
  have short' : (@unpackMantissa .binary64 word').toNat < 2 ^ 52 := BitVec.isLt _
  generalize same : number = number' at read'
  cases read with
  | notANumber => exact absurd rfl defined
  | infinity greatest empty =>
      cases read' with
      | infinity greatest' empty' =>
          exact word_eq_of_parts (empty.trans empty'.symm) (greatest.trans greatest'.symm)
            (sign_ofBitVec_injective (UnpackedFloat.infinity.inj same))
      | _ => cases same
  | zero least empty =>
      cases read' with
      | zero least' empty' =>
          exact word_eq_of_parts (empty.trans empty'.symm) (least.trans least'.symm)
            (sign_ofBitVec_injective (UnpackedFloat.zero.inj same))
      | _ => cases same
  | subnormal least =>
      cases read' with
      | subnormal least' =>
          rcases UnpackedFloat.finite.inj same with ⟨sign, mantissa, -⟩
          exact word_eq_of_parts (BitVec.eq_of_toNat_eq mantissa) (least.trans least'.symm)
            (sign_ofBitVec_injective sign)
      | normal =>
          have mantissa := (UnpackedFloat.finite.inj same).2.1
          omega
      | _ => cases same
  | normal =>
      cases read' with
      | subnormal =>
          have mantissa := (UnpackedFloat.finite.inj same).2.1
          omega
      | normal =>
          rcases UnpackedFloat.finite.inj same with ⟨sign, mantissa, exponent⟩
          exact word_eq_of_parts (BitVec.eq_of_toNat_eq (by omega))
            (BitVec.eq_of_toNat_eq (by omega)) (sign_ofBitVec_injective sign)
      | _ => cases same

/-- The undefined number has one word. -/
theorem Reads.word_eq_packedNaN {word : BitVec Format.binary64.numBits}
    (valid : Format.binary64.Valid word) (read : Reads word .notANumber) :
    word = packedNaN .binary64 := by
  cases read with
  | notANumber greatest marked => exact valid.eq_packedNaN greatest marked

theorem unpack_injective : Function.Injective Float.Model.unpack := by
  intro x y same
  have read := reads_unpack x.toBits.toBitVec
  have read' : Reads y.toBits.toBitVec x.unpack := same ▸ reads_unpack y.toBits.toBitVec
  have words : x.toBits.toBitVec = y.toBits.toBitVec := by
    by_cases undefined : x.unpack = .notANumber
    · rw [undefined] at read'
      rw [Reads.word_eq_packedNaN x.valid (undefined ▸ read),
        Reads.word_eq_packedNaN y.valid read']
    · exact Reads.word_eq read read' undefined
  cases x
  cases y
  cases UInt64.toBitVec_inj.mp words
  rfl

/-! ## Exact values -/

/-- The exact value of a number that is read from a word. -/
def Binary.ofUnpacked : UnpackedFloat → Binary
  | .notANumber => .notANumber
  | .infinity sign => .infinite (isNegative sign)
  | .zero sign => .finite (isNegative sign) 0 0
  | .finite sign significand exponent _ => .finite (isNegative sign) significand exponent

theorem ofFloat_eq (x : Float) : Binary.ofFloat x = Binary.ofUnpacked x.toModel.unpack :=
  rfl

theorem isNegative_injective : Function.Injective isNegative := by
  intro sign sign' same
  cases sign <;> cases sign' <;> first | rfl | cases same

theorem ofUnpacked_injective : Function.Injective Binary.ofUnpacked := by
  intro number number' same
  cases number <;> cases number' <;>
    simp only [Binary.ofUnpacked, Binary.infinite.injEq, Binary.finite.injEq, reduceCtorEq]
      at same
  case notANumber.notANumber => rfl
  case infinity.infinity => rw [isNegative_injective same]
  case zero.zero => rw [isNegative_injective same.1]
  case zero.finite positive => exact absurd same.2.1 positive.ne
  case finite.zero positive _ => exact absurd same.2.1 positive.ne'
  case finite.finite =>
      rcases same with ⟨sign, rfl, rfl⟩
      rw [isNegative_injective sign]

/-- Different doubles have different exact values, the two zeros by their signs. -/
theorem ofFloat_injective : Function.Injective Binary.ofFloat := by
  intro x y same
  rw [ofFloat_eq, ofFloat_eq] at same
  have models := unpack_injective (ofUnpacked_injective same)
  cases x
  cases y
  cases models
  rfl

/-- The parts of a finite number are those of a double. -/
def Binary.IsRead : Binary → Prop
  | .finite _ significand exponent =>
      significand = 0 ∧ exponent = 0 ∨ IsNormalized significand exponent
  | _ => True

theorem isRead_ofFloat (x : Float) : (Binary.ofFloat x).IsRead := by
  have read := reads_unpack x.toModel.toBits.toBitVec
  have short : (@unpackMantissa .binary64 x.toModel.toBits.toBitVec).toNat < 2 ^ 52 :=
    BitVec.isLt _
  rw [ofFloat_eq, Float.Model.unpack]
  generalize UnpackedFloat.unpack .binary64 x.toModel.toBits.toBitVec = number at read
  cases read with
  | zero => exact .inl ⟨rfl, rfl⟩
  | subnormal least positive =>
      exact .inr ⟨positive, short.trans (by decide), le_refl _, fun less => absurd less (by decide)⟩
  | normal between positive =>
      have above : (@unpackExponent .binary64 x.toModel.toBits.toBitVec).toNat ≠ 0 := by
        intro least
        exact between (BitVec.eq_of_toNat_eq least)
      have least : minExponent ≤
          (@unpackExponent .binary64 x.toModel.toBits.toBitVec).toNat - 1075 := by
        rw [minExponent]
        omega
      exact .inr ⟨positive, by omega, least, by omega⟩
  | _ => trivial

/-! ## Texts -/

variable {significand' : Nat} {exponent' : Int}

/-- Shortest decimals tell the doubles apart. -/
theorem eq_of_positional_shortest_eq (normalized : IsNormalized significand exponent)
    (normalized' : IsNormalized significand' exponent')
    (same : positional (shortest significand exponent).1 (shortest significand exponent).2 =
      positional (shortest significand' exponent').1 (shortest significand' exponent').2) :
    significand = significand' ∧ exponent = exponent' := by
  have has := has_shortest normalized
  rw [value_eq_of_positional_eq same] at has
  exact eq_of_has normalized normalized' has (has_shortest normalized')

/-- No positive double is written as zero is. -/
theorem positional_shortest_ne_zero (normalized : IsNormalized significand exponent) :
    positional (shortest significand exponent).1 (shortest significand exponent).2 ≠ ['0'] := by
  intro zero
  have positive := pos_of_has normalized (has_shortest normalized)
  have same : positional (shortest significand exponent).1 (shortest significand exponent).2 =
      positional 0 0 := zero
  rw [value_eq_of_positional_eq same] at positive
  simp at positive

theorem not_mem_magnitudeText (binary : Binary) : '-' ∉ binary.magnitudeText := by
  intro mem
  rcases mem_magnitudeText mem with digit | other
  · exact absurd digit (by decide)
  · exact absurd other (by decide)

/-- A sign is told from the magnitude behind it. -/
theorem eq_of_signed_eq {negative negative' : Bool} {magnitude magnitude' : List Char}
    (unsigned : '-' ∉ magnitude) (unsigned' : '-' ∉ magnitude')
    (same : signText negative ++ magnitude = signText negative' ++ magnitude') :
    negative = negative' ∧ magnitude = magnitude' := by
  cases negative <;> cases negative'
  case false.false => exact ⟨rfl, same⟩
  case false.true =>
      have mem : '-' ∈ magnitude := by
        rw [show magnitude = '-' :: magnitude' from same]
        exact List.mem_cons_self
      exact absurd mem unsigned
  case true.false =>
      have mem : '-' ∈ magnitude' := by
        rw [show magnitude' = '-' :: magnitude from same.symm]
        exact List.mem_cons_self
      exact absurd mem unsigned'
  case true.true => exact ⟨rfl, (List.cons.inj same).2⟩

/-- The text of a finite number has no letters. -/
theorem finite_magnitudeText_ne {negative : Bool} {letter : Char} {rest : List Char}
    (digit : letter.isDigit = false) (point : letter ≠ '.') :
    (Binary.finite negative significand exponent).magnitudeText ≠ letter :: rest := by
  rw [Binary.magnitudeText]
  intro word
  split_ifs at word
  · rw [← (List.cons.inj word).1] at digit
    exact absurd digit (by decide)
  · have mem : letter ∈
        positional (shortest significand exponent).1 (shortest significand exponent).2 := by
      rw [word]
      exact List.mem_cons_self
    rcases mem_positional mem with isDigit | isPoint
    · exact absurd isDigit (by rw [digit]; decide)
    · exact point isPoint

theorem eq_of_finite_magnitudeText_eq {negative negative' : Bool}
    (read : (Binary.finite negative significand exponent).IsRead)
    (read' : (Binary.finite negative' significand' exponent').IsRead)
    (same : (Binary.finite negative significand exponent).magnitudeText =
      (Binary.finite negative' significand' exponent').magnitudeText) :
    significand = significand' ∧ exponent = exponent' := by
  rw [Binary.magnitudeText, Binary.magnitudeText] at same
  rcases read with ⟨rfl, rfl⟩ | normalized <;> rcases read' with ⟨rfl, rfl⟩ | normalized'
  · exact ⟨rfl, rfl⟩
  · rw [if_pos rfl, if_neg normalized'.positive.ne'] at same
    exact absurd same.symm (positional_shortest_ne_zero normalized')
  · rw [if_pos rfl, if_neg normalized.positive.ne'] at same
    exact absurd same (positional_shortest_ne_zero normalized)
  · rw [if_neg normalized.positive.ne', if_neg normalized'.positive.ne'] at same
    exact eq_of_positional_shortest_eq normalized normalized' same

/-- Among the exact values of doubles, the sign and the magnitude that are written
determine the value. -/
theorem eq_of_texts {binary binary' : Binary} (read : binary.IsRead) (read' : binary'.IsRead)
    (signs : binary.negative = binary'.negative)
    (magnitudes : binary.magnitudeText = binary'.magnitudeText) : binary = binary' := by
  cases binary <;> cases binary'
  case notANumber.notANumber => rfl
  case infinite.infinite => exact congrArg Binary.infinite signs
  case finite.finite =>
      rcases eq_of_finite_magnitudeText_eq read read' magnitudes with ⟨rfl, rfl⟩
      exact congrArg (Binary.finite · _ _) signs
  case notANumber.infinite => exact absurd magnitudes (by simp [Binary.magnitudeText])
  case infinite.notANumber => exact absurd magnitudes (by simp [Binary.magnitudeText])
  case notANumber.finite => exact absurd magnitudes.symm (finite_magnitudeText_ne rfl (by decide))
  case infinite.finite => exact absurd magnitudes.symm (finite_magnitudeText_ne rfl (by decide))
  case finite.notANumber => exact absurd magnitudes (finite_magnitudeText_ne rfl (by decide))
  case finite.infinite => exact absurd magnitudes (finite_magnitudeText_ne rfl (by decide))

/-- The text of a double determines the double, infinities, both zeros and the undefined
double included. -/
theorem render_injective : Function.Injective render := by
  intro x y same
  rw [render_eq, render_eq] at same
  rcases eq_of_signed_eq (not_mem_magnitudeText _) (not_mem_magnitudeText _) same with
    ⟨signs, magnitudes⟩
  exact ofFloat_injective (eq_of_texts (isRead_ofFloat x) (isRead_ofFloat y) signs magnitudes)

end FieldRules.Number
