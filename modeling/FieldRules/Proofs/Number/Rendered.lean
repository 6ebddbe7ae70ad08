import FieldRules.Number.Shortest
import FieldRules.Proofs.Text.Run
import Mathlib.Algebra.Order.Field.Basic
import Mathlib.Algebra.Order.Ring.Rat
import Mathlib.Tactic.FinCases
import Mathlib.Tactic.NormNum

/-!
# Positional texts

A positional text consists of digits, with a point among them when it has decimal places,
and it says which number it stands for.
-/

namespace FieldRules.Number

variable {digits digits' : Nat} {exponent exponent' : Int} {c : Char}

theorem isDigit_of_mem_decimalDigits (mem : c ∈ decimalDigits digits) : c.isDigit = true :=
  Nat.isDigit_of_mem_toDigits (by decide) (by decide) mem

theorem isDigit_of_mem_zeros {count : Nat} (mem : c ∈ List.replicate count '0') :
    c.isDigit = true :=
  List.eq_of_mem_replicate mem ▸ rfl

theorem isDigit_of_mem_padded {zeros : Nat}
    (mem : c ∈ List.replicate zeros '0' ++ decimalDigits digits) : c.isDigit = true := by
  rcases List.mem_append.mp mem with padding | written
  · exact isDigit_of_mem_zeros padding
  · exact isDigit_of_mem_decimalDigits written

theorem positional_of_nonneg (whole : 0 ≤ exponent) :
    positional digits exponent =
      decimalDigits digits ++ List.replicate exponent.toNat '0' :=
  if_pos whole

/-- With decimal places, the digits stand around a point, zeros in front of them. -/
theorem exists_parts_of_neg (digits : Nat) (fraction : exponent < 0) :
    ∃ before places zeros, positional digits exponent = before ++ '.' :: places ∧
      before ++ places = List.replicate zeros '0' ++ decimalDigits digits ∧
      places.length = exponent.natAbs := by
  refine ⟨_, _, _, if_neg (by omega), List.take_append_drop _ _, ?_⟩
  rw [List.length_drop, List.length_append, List.length_replicate]
  omega

/-- Positional texts consist of digits and at most a point. -/
theorem mem_positional (mem : c ∈ positional digits exponent) : c.isDigit = true ∨ c = '.' := by
  rcases lt_or_ge exponent 0 with fraction | whole
  · rcases exists_parts_of_neg digits fraction with ⟨before, places, zeros, shape, parts, -⟩
    rw [shape] at mem
    rcases List.mem_append.mp mem with inWhole | mem
    · exact .inl (isDigit_of_mem_padded (parts ▸ List.mem_append_left _ inWhole))
    · rcases List.mem_cons.mp mem with point | inPlaces
      · exact .inr point
      · exact .inl (isDigit_of_mem_padded (parts ▸ List.mem_append_right _ inPlaces))
  · rw [positional_of_nonneg whole] at mem
    rcases List.mem_append.mp mem with written | padding
    · exact .inl (isDigit_of_mem_decimalDigits written)
    · exact .inl (isDigit_of_mem_zeros padding)

theorem positional_ne_nil (digits : Nat) (exponent : Int) : positional digits exponent ≠ [] := by
  rcases lt_or_ge exponent 0 with fraction | whole
  · rcases exists_parts_of_neg digits fraction with ⟨before, places, zeros, shape, -⟩
    simp [shape]
  · simp [positional_of_nonneg whole, decimalDigits, Nat.toDigits_ne_nil]

/-! ## The number that a text stands for -/

theorem ofDigitChars_zeros_append (zeros digits : Nat) :
    Nat.ofDigitChars 10 (List.replicate zeros '0' ++ decimalDigits digits) 0 = digits := by
  rw [Nat.ofDigitChars_append, Nat.ofDigitChars_replicate_zero, Nat.mul_zero, decimalDigits,
    Nat.ofDigitChars_ten_toDigits]

theorem ofDigitChars_append_zeros (digits zeros : Nat) :
    Nat.ofDigitChars 10 (decimalDigits digits ++ List.replicate zeros '0') 0 =
      10 ^ zeros * digits := by
  rw [Nat.ofDigitChars_append, Nat.ofDigitChars_replicate_zero, decimalDigits,
    Nat.ofDigitChars_ten_toDigits]

theorem not_mem_positional_of_nonneg (whole : 0 ≤ exponent) :
    '.' ∉ positional digits exponent := by
  intro mem
  rw [positional_of_nonneg whole] at mem
  rcases List.mem_append.mp mem with written | padding
  · exact absurd (isDigit_of_mem_decimalDigits written) (by decide)
  · exact absurd (isDigit_of_mem_zeros padding) (by decide)

theorem mem_positional_of_neg (fraction : exponent < 0) : '.' ∈ positional digits exponent := by
  rcases exists_parts_of_neg digits fraction with ⟨before, places, zeros, shape, -⟩
  simp [shape]

/-- With decimal places, the text determines the digits and the exponent. -/
theorem eq_of_positional_eq_of_neg (fraction : exponent < 0) (fraction' : exponent' < 0)
    (same : positional digits exponent = positional digits' exponent') :
    digits = digits' ∧ exponent = exponent' := by
  rcases exists_parts_of_neg digits fraction with ⟨before, places, zeros, shape, parts, count⟩
  rcases exists_parts_of_neg digits' fraction' with
    ⟨before', places', zeros', shape', parts', count'⟩
  have point {places : List Char} : ∀ c ∈ ('.' :: places).head?, c.isDigit = false := by
    rintro c ⟨⟩
    rfl
  rw [shape, shape'] at same
  rcases Text.run_append_inj
    (fun c mem => isDigit_of_mem_padded (parts ▸ List.mem_append_left _ mem))
    (fun c mem => isDigit_of_mem_padded (parts' ▸ List.mem_append_left _ mem))
    point point same with ⟨rfl, samePlaces⟩
  rcases (List.cons.inj samePlaces).2 with rfl
  constructor
  · rw [← ofDigitChars_zeros_append zeros digits, ← parts, parts', ofDigitChars_zeros_append]
  · omega

theorem value_eq_of_positional_eq
    (same : positional digits exponent = positional digits' exponent') :
    (digits : ℚ) * 10 ^ exponent = digits' * 10 ^ exponent' := by
  rcases lt_or_ge exponent 0 with fraction | whole <;>
    rcases lt_or_ge exponent' 0 with fraction' | whole'
  · obtain ⟨rfl, rfl⟩ := eq_of_positional_eq_of_neg fraction fraction' same
    rfl
  · exact absurd (same ▸ mem_positional_of_neg fraction) (not_mem_positional_of_nonneg whole')
  · exact absurd (same ▸ mem_positional_of_neg fraction') (not_mem_positional_of_nonneg whole)
  · obtain ⟨zeros, rfl⟩ := Int.eq_ofNat_of_zero_le whole
    obtain ⟨zeros', rfl⟩ := Int.eq_ofNat_of_zero_le whole'
    rw [positional_of_nonneg whole, positional_of_nonneg whole'] at same
    have values := congrArg (Nat.ofDigitChars 10 · 0) same
    simp only [ofDigitChars_append_zeros, Int.toNat_natCast] at values
    rw [zpow_natCast, zpow_natCast, mul_comm, mul_comm (digits' : ℚ)]
    exact_mod_cast values

/-! ## Texts of doubles -/

/-- The text of a double without its sign. -/
def Binary.magnitudeText : Binary → List Char
  | .notANumber => ['N', 'a', 'N']
  | .infinite _ => ['i', 'n', 'f']
  | .finite _ significand exponent =>
      if significand = 0 then ['0']
      else positional (shortest significand exponent).1 (shortest significand exponent).2

/-- The sign that is written in front of a double. -/
def Binary.negative : Binary → Bool
  | .notANumber => false
  | .infinite negative => negative
  | .finite negative _ _ => negative

theorem render_eq (x : Float) :
    render x = signText (Binary.ofFloat x).negative ++ (Binary.ofFloat x).magnitudeText := by
  rw [render]
  cases Binary.ofFloat x with
  | notANumber => rfl
  | infinite negative => rfl
  | finite negative significand exponent =>
      simp only [Binary.magnitudeText, Binary.negative]
      split_ifs <;> rfl

theorem mem_magnitudeText {binary : Binary} (mem : c ∈ binary.magnitudeText) :
    c.isDigit = true ∨ c ∈ ['.', 'i', 'n', 'f', 'N', 'a'] := by
  cases binary with
  | notANumber =>
      right
      fin_cases mem <;> decide
  | infinite negative =>
      right
      fin_cases mem <;> decide
  | finite negative significand exponent =>
      rw [Binary.magnitudeText] at mem
      split_ifs at mem
      · rw [List.mem_singleton.mp mem]
        exact .inl rfl
      · rcases mem_positional mem with digit | rfl
        · exact .inl digit
        · exact .inr List.mem_cons_self

theorem magnitudeText_ne_nil (binary : Binary) : binary.magnitudeText ≠ [] := by
  cases binary with
  | finite negative significand exponent =>
      rw [Binary.magnitudeText]
      split_ifs
      · simp
      · exact positional_ne_nil _ _
  | _ => simp [Binary.magnitudeText]

/-- Numbers are written with digits, a sign, a point and the letters of three words. -/
theorem mem_render {x : Float} (mem : c ∈ render x) :
    c.isDigit = true ∨ c ∈ ['-', '.', 'i', 'n', 'f', 'N', 'a'] := by
  rw [render_eq] at mem
  rcases List.mem_append.mp mem with sign | magnitude
  · cases negative : (Binary.ofFloat x).negative with
    | false => simp [negative, signText] at sign
    | true => simp_all [signText]
  · exact (mem_magnitudeText magnitude).imp_right (List.mem_cons_of_mem _)

theorem render_ne_nil (x : Float) : render x ≠ [] := by
  rw [render_eq]
  exact List.append_ne_nil_of_right_ne_nil _ (magnitudeText_ne_nil _)

end FieldRules.Number
