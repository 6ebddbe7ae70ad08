import FieldRules.Proofs.Number.Exact
import FieldRules.Proofs.Number.Rendered

/-!
# Different doubles are written differently

The numbers that round to a double form its rounding interval.  Seventeen digits are
enough to get into this interval, so the search for the shortest decimal ends there.  The
rounding intervals of different doubles have no number in common, and a positional text
says which number it stands for.  So no two doubles are written alike.
-/

namespace FieldRules.Number

variable {significand significand' : Nat} {exponent exponent' : Int}

/-! ## Quotients -/

/-- The rational number of a quotient. -/
def quotient (q : Nat × Nat) : ℚ :=
  q.1 / q.2

/-- The power of a base as a quotient, by the sign of its exponent. -/
def powerOf (base : Nat) (exponent : Int) : Nat × Nat :=
  if 0 ≤ exponent then (Nat.pow base exponent.toNat, 1)
  else (1, Nat.pow base exponent.natAbs)

theorem quotient_powerOf (base : Nat) (exponent : Int) :
    quotient (powerOf base exponent) = (base : ℚ) ^ exponent := by
  rw [powerOf, quotient]
  split_ifs with whole
  · rcases Int.eq_ofNat_of_zero_le whole with ⟨places, rfl⟩
    simp
  · have places : exponent = -(exponent.natAbs : Int) := by omega
    rw [places, zpow_neg, zpow_natCast, Int.natAbs_neg, Int.natAbs_natCast]
    simp

theorem powerOf_pos {base : Nat} (positive : 0 < base) (exponent : Int) :
    0 < (powerOf base exponent).1 ∧ 0 < (powerOf base exponent).2 := by
  rw [powerOf]
  split_ifs
  · exact ⟨Nat.pow_pos positive, Nat.one_pos⟩
  · exact ⟨Nat.one_pos, Nat.pow_pos positive⟩

theorem powerOfTen_eq (exponent : Int) : powerOfTen exponent = powerOf 10 exponent :=
  rfl

/-! ## Rounding intervals -/

/-- A number lies in an interval. -/
def Interval.Has (interval : Interval) (q : ℚ) : Prop :=
  if interval.closed then
    interval.lower * quotient interval.unit ≤ q ∧ q ≤ interval.upper * quotient interval.unit
  else interval.lower * quotient interval.unit < q ∧ q < interval.upper * quotient interval.unit

/-- Whether a decimal lies in an interval is decided by whole numbers. -/
theorem Interval.contains_iff {interval : Interval} (positive : 0 < interval.unit.2)
    (digits : Nat) (exponent : Int) :
    interval.contains digits exponent = true ↔ interval.Has (digits * 10 ^ exponent) := by
  have power := quotient_powerOf 10 exponent
  have power_pos := (powerOf_pos (by decide : 0 < 10) exponent).2
  rw [← powerOfTen_eq] at power power_pos
  have unit_pos : (0 : ℚ) < interval.unit.2 := by exact_mod_cast positive
  have power_pos : (0 : ℚ) < (powerOfTen exponent).2 := by exact_mod_cast power_pos
  have point : (digits : ℚ) * 10 ^ exponent =
      (digits * (powerOfTen exponent).1 : ℕ) / (powerOfTen exponent).2 := by
    rw [← Nat.cast_ofNat, ← power, quotient]
    push_cast
    ring
  have bound (n : Nat) : (n : ℚ) * quotient interval.unit =
      (n * interval.unit.1 : ℕ) / interval.unit.2 := by
    rw [quotient]
    push_cast
    ring
  rw [Interval.Has, point, bound, bound, div_le_div_iff₀ unit_pos power_pos,
    div_le_div_iff₀ power_pos unit_pos, div_lt_div_iff₀ unit_pos power_pos,
    div_lt_div_iff₀ power_pos unit_pos, contains]
  norm_cast
  split_ifs <;> simp

/-! ## Intervals of different doubles -/

/-- The parts of a positive double: the significand is full unless the exponent is the
least one. -/
structure IsNormalized (significand : Nat) (exponent : Int) : Prop where
  positive : 0 < significand
  short : significand < 2 ^ 53
  least : minExponent ≤ exponent
  full : minExponent < exponent → 2 ^ 52 ≤ significand

theorem quotient_unit_ofBinary (significand : Nat) (exponent : Int) :
    quotient (Interval.ofBinary significand exponent).unit = 2 ^ (exponent - 2) := by
  exact_mod_cast quotient_powerOf 2 (exponent - 2)

theorem unit_ofBinary_pos (significand : Nat) (exponent : Int) :
    0 < (Interval.ofBinary significand exponent).unit.1 ∧
      0 < (Interval.ofBinary significand exponent).unit.2 :=
  powerOf_pos (by decide) (exponent - 2)

/-- The interval of a lesser double ends where that of a greater one starts or before, and
one number does not belong to both. -/
theorem upper_le_lower (lesser : IsNormalized significand exponent) {shift : Nat}
    (greater : IsNormalized significand' (exponent + shift))
    (less : shift = 0 → significand < significand') :
    (Interval.ofBinary significand exponent).upper ≤
        (Interval.ofBinary significand' (exponent + shift)).lower * 2 ^ shift ∧
      (significand % 2 = 0 → significand' % 2 = 0 →
        (Interval.ofBinary significand exponent).upper <
          (Interval.ofBinary significand' (exponent + shift)).lower * 2 ^ shift) := by
  have short := lesser.short
  have least := lesser.least
  have full := greater.full
  have start : binadeStart = 2 ^ 52 := rfl
  simp only [Interval.ofBinary, Bool.and_eq_true, decide_eq_true_eq, start]
  cases shift with
  | zero =>
      have less := less rfl
      split_ifs <;> omega
  | succ shift =>
      have full := full (by omega)
      have doubled : 2 ≤ 2 ^ (shift + 1) := Nat.le_self_pow (by omega) 2
      split_ifs with first
      · have := Nat.mul_le_mul_left (4 * significand' - 1) doubled
        omega
      · have above : 2 ^ 52 < significand' := by omega
        have := Nat.mul_le_mul_left (4 * significand' - 2) doubled
        omega

/-- A lesser and a greater double have no number in common that rounds to both. -/
theorem not_has_of_less (lesser : IsNormalized significand exponent) {shift : Nat}
    (greater : IsNormalized significand' (exponent + shift))
    (less : shift = 0 → significand < significand') {q : ℚ}
    (inLesser : (Interval.ofBinary significand exponent).Has q) :
    ¬(Interval.ofBinary significand' (exponent + shift)).Has q := by
  intro inGreater
  rcases upper_le_lower lesser greater less with ⟨apart, apart_closed⟩
  have unit_pos : (0 : ℚ) < 2 ^ (exponent - 2) := by positivity
  have units : (2 : ℚ) ^ (exponent + shift - 2) = 2 ^ shift * 2 ^ (exponent - 2) := by
    rw [← zpow_natCast, ← zpow_add₀ (by norm_num)]
    congr 1
    ring
  have weak : ((Interval.ofBinary significand exponent).upper : ℚ) * 2 ^ (exponent - 2) ≤
      (Interval.ofBinary significand' (exponent + shift)).lower * 2 ^ (exponent + shift - 2) := by
    rw [units, ← mul_assoc]
    exact mul_le_mul_of_nonneg_right (by exact_mod_cast apart) unit_pos.le
  rw [Interval.Has, quotient_unit_ofBinary] at inLesser inGreater
  split_ifs at inLesser inGreater with closed closed'
  · have strict : ((Interval.ofBinary significand exponent).upper : ℚ) * 2 ^ (exponent - 2) <
        (Interval.ofBinary significand' (exponent + shift)).lower *
          2 ^ (exponent + shift - 2) := by
      have apart := apart_closed (of_decide_eq_true closed) (of_decide_eq_true closed')
      rw [units, ← mul_assoc]
      exact mul_lt_mul_of_pos_right (by exact_mod_cast apart) unit_pos
    linarith [inLesser.2, inGreater.1]
  · linarith [inLesser.2, inGreater.1]
  · linarith [inLesser.2, inGreater.1]
  · linarith [inLesser.2, inGreater.1]

/-- No number rounds to two doubles. -/
theorem eq_of_has (normalized : IsNormalized significand exponent)
    (normalized' : IsNormalized significand' exponent') {q : ℚ}
    (has : (Interval.ofBinary significand exponent).Has q)
    (has' : (Interval.ofBinary significand' exponent').Has q) :
    significand = significand' ∧ exponent = exponent' := by
  rcases lt_trichotomy exponent exponent' with less | rfl | greater
  · rcases Int.le.dest less.le with ⟨shift, rfl⟩
    have shifted : shift = 0 → significand < significand' := by omega
    exact absurd has' (not_has_of_less normalized normalized' shifted has)
  · have same : exponent = exponent + (0 : Nat) := (Int.add_zero exponent).symm
    rcases lt_trichotomy significand significand' with less | rfl | greater
    · rw [same] at normalized' has'
      exact absurd has' (not_has_of_less normalized normalized' (fun _ => less) has)
    · exact ⟨rfl, rfl⟩
    · rw [same] at normalized has
      exact absurd has (not_has_of_less normalized' normalized (fun _ => greater) has')
  · rcases Int.le.dest greater.le with ⟨shift, rfl⟩
    have shifted : shift = 0 → significand' < significand := by omega
    exact absurd has (not_has_of_less normalized' normalized shifted has')

/-! ## Grids -/

variable {interval : Interval}

/-- The point of a grid that is nearest to the value of an interval. -/
def Interval.nearest (interval : Interval) (exponent : Int) : Nat :=
  if (interval.neighbours exponent).2 then (interval.neighbours exponent).1 + 1
  else (interval.neighbours exponent).1

/-- The neighbour of the value on its other side. -/
def Interval.farther (interval : Interval) (exponent : Int) : Nat :=
  if (interval.neighbours exponent).2 then (interval.neighbours exponent).1
  else (interval.neighbours exponent).1 + 1

theorem gridPoint?_eq (interval : Interval) (exponent : Int) :
    interval.gridPoint? exponent =
      if interval.contains (interval.nearest exponent) exponent then
        some (interval.nearest exponent)
      else if interval.contains (interval.farther exponent) exponent then
        some (interval.farther exponent)
      else none :=
  rfl

theorem contains_of_gridPoint? {digits : Nat}
    (found : interval.gridPoint? exponent = some digits) :
    interval.contains digits exponent = true := by
  rw [gridPoint?_eq] at found
  split_ifs at found with near far
  · rwa [Option.some.inj found] at near
  · rwa [Option.some.inj found] at far

/-- A search that comes to a point of the interval before it ends returns one. -/
theorem contains_search {steps : Nat}
    (last : (interval.gridPoint? (exponent - steps)).isSome = true) :
    interval.contains (interval.search (steps + 1) exponent).1
      (interval.search (steps + 1) exponent).2 = true := by
  induction steps generalizing exponent with
  | zero =>
      rw [Nat.cast_zero, sub_zero] at last
      rcases Option.isSome_iff_exists.mp last with ⟨digits, found⟩
      simp only [Interval.search, found]
      exact contains_of_gridPoint? found
  | succ steps ih =>
      rw [Interval.search]
      cases found : interval.gridPoint? exponent with
      | some digits => exact contains_of_gridPoint? found
      | none =>
          apply ih
          rwa [sub_sub, add_comm (1 : Int), ← Nat.cast_succ]

/-- The nearest point of a grid is at most half a step away. -/
theorem nearest_bounds (positive : 0 < interval.unit.2) (exponent : Int) :
    interval.value * quotient interval.unit - 10 ^ exponent / 2 ≤
        (interval.nearest exponent : ℚ) * 10 ^ exponent ∧
      (interval.nearest exponent : ℚ) * 10 ^ exponent ≤
        interval.value * quotient interval.unit + 10 ^ exponent / 2 := by
  have power := quotient_powerOf 10 exponent
  have power_pos := powerOf_pos (by decide : 0 < 10) exponent
  rw [← powerOfTen_eq] at power power_pos
  -- in units of the common denominator, the value is a numerator and a step a denominator
  let numerator := interval.value * interval.unit.1 * (powerOfTen exponent).2
  let denominator := interval.unit.2 * (powerOfTen exponent).1
  have denominator_pos : 0 < denominator := Nat.mul_pos positive power_pos.1
  have split : numerator / denominator * denominator + numerator % denominator = numerator := by
    rw [Nat.mul_comm]
    exact Nat.div_add_mod numerator denominator
  have rest := Nat.mod_lt numerator denominator_pos
  have above : (numerator / denominator + 1) * denominator =
      numerator / denominator * denominator + denominator := Nat.succ_mul _ _
  have near : 2 * numerator ≤ 2 * (interval.nearest exponent * denominator) + denominator ∧
      2 * (interval.nearest exponent * denominator) ≤ 2 * numerator + denominator := by
    have nearest : interval.nearest exponent =
        if decide (denominator ≤ 2 * (numerator - numerator / denominator * denominator)) then
          numerator / denominator + 1
        else numerator / denominator := rfl
    rw [nearest]
    simp only [decide_eq_true_eq]
    split_ifs <;> omega
  have unit_pos : (0 : ℚ) < interval.unit.2 := by exact_mod_cast positive
  have tens_pos : (0 : ℚ) < (powerOfTen exponent).2 := by exact_mod_cast power_pos.2
  have scale_pos : (0 : ℚ) < (interval.unit.2 * (powerOfTen exponent).2 : ℚ)⁻¹ := by positivity
  have value : (interval.value : ℚ) * quotient interval.unit =
      numerator * (interval.unit.2 * (powerOfTen exponent).2 : ℚ)⁻¹ := by
    rw [quotient]
    simp only [numerator]
    push_cast
    field_simp
  have step : (10 : ℚ) ^ exponent =
      denominator * (interval.unit.2 * (powerOfTen exponent).2 : ℚ)⁻¹ := by
    rw [← Nat.cast_ofNat, ← power, quotient]
    simp only [denominator]
    push_cast
    field_simp
  have lower : (2 * numerator : ℚ) ≤
      2 * (interval.nearest exponent * denominator) + denominator := by
    exact_mod_cast near.1
  have upper : (2 * (interval.nearest exponent * denominator) : ℚ) ≤
      2 * numerator + denominator := by
    exact_mod_cast near.2
  rw [value, step]
  constructor
  · linarith [mul_le_mul_of_nonneg_right lower scale_pos.le]
  · linarith [mul_le_mul_of_nonneg_right upper scale_pos.le]

/-- A grid whose steps are short enough for an interval has a point in it. -/
theorem isSome_gridPoint? (positive : 0 < interval.unit.2)
    (lower_near : interval.lower * quotient interval.unit <
      interval.value * quotient interval.unit - 10 ^ exponent / 2)
    (upper_near : interval.value * quotient interval.unit + 10 ^ exponent / 2 <
      interval.upper * quotient interval.unit) :
    (interval.gridPoint? exponent).isSome = true := by
  rcases nearest_bounds positive exponent with ⟨lower, upper⟩
  have has : interval.Has (interval.nearest exponent * 10 ^ exponent) := by
    rw [Interval.Has]
    split_ifs
    · exact ⟨(lower_near.trans_le lower).le, (upper.trans_lt upper_near).le⟩
    · exact ⟨lower_near.trans_le lower, upper.trans_lt upper_near⟩
  rw [gridPoint?_eq, if_pos ((Interval.contains_iff positive _ _).mpr has)]
  rfl

/-! ## The last grid -/

/-- Steps of less than 10⁻¹⁶ of a double are short enough for its interval. -/
theorem isSome_gridPoint?_of_le (normalized : IsNormalized significand exponent) {power : Int}
    (fine : (10 : ℚ) ^ power * 10 ^ 16 ≤ significand * 2 ^ exponent) :
    ((Interval.ofBinary significand exponent).gridPoint? power).isSome = true := by
  have quarter : (2 : ℚ) ^ exponent = 4 * 2 ^ (exponent - 2) := by
    rw [zpow_sub₀ (by norm_num)]
    norm_num
    ring
  have unit_pos : (0 : ℚ) < 2 ^ (exponent - 2) := by positivity
  have short : (significand : ℚ) ≤ 2 ^ 53 - 1 := by
    have := normalized.short
    have : significand + 1 ≤ 2 ^ 53 := by omega
    have : ((significand + 1 : ℕ) : ℚ) ≤ (2 ^ 53 : ℕ) := by exact_mod_cast this
    push_cast at this
    linarith
  have value : ((Interval.ofBinary significand exponent).value : ℚ) = 4 * significand := by
    simp [Interval.ofBinary]
  have upper : ((Interval.ofBinary significand exponent).upper : ℚ) = 4 * significand + 2 := by
    simp [Interval.ofBinary]
  rw [quarter] at fine
  have bounded := mul_le_mul_of_nonneg_right short unit_pos.le
  apply isSome_gridPoint? (unit_ofBinary_pos significand exponent).2
  · rw [quotient_unit_ofBinary, value, Interval.ofBinary]
    have positive := normalized.positive
    split_ifs with first
    · have start : significand = 2 ^ 52 := by
        rw [Bool.and_eq_true, decide_eq_true_eq] at first
        exact first.1
      rw [start] at fine ⊢
      norm_num at fine ⊢
      linarith
    · rw [Nat.cast_sub (by omega)]
      push_cast
      linarith
  · rw [quotient_unit_ofBinary, value, upper]
    linarith

/-- A positive number is at least the power of ten of its leading digit. -/
theorem pow_le_of_pos {n : Nat} (positive : 0 < n) : 10 ^ ((decimalDigits n).length - 1) ≤ n := by
  by_cases one : (decimalDigits n).length - 1 = 0
  · rw [one, Nat.pow_zero]
    exact positive
  · by_contra less
    have shorter : (decimalDigits n).length ≤ (decimalDigits n).length - 1 :=
      (Nat.length_toDigits_le_iff (by decide) (Nat.pos_of_ne_zero one)).mpr (by omega)
    omega

theorem two_pow_le_ten_pow (places : Nat) : 2 ^ (3 * places) ≤ 10 ^ places := by
  rw [Nat.pow_mul]
  exact Nat.pow_le_pow_left (by decide) places

theorem powerOf_two_le {places : Nat} (least : -(places : Int) ≤ exponent) :
    (powerOf 2 exponent).2 ≤ 2 ^ places := by
  rw [powerOf]
  split_ifs
  · exact Nat.one_le_two_pow
  · apply Nat.pow_le_pow_right (by decide)
    omega

/-- No double is so small that its leading digit is behind that many decimal places. -/
theorem raised_pos (normalized : IsNormalized significand exponent) {places : Nat}
    (enough : 359 ≤ places) : 0 < (Interval.ofBinary significand exponent).raised places := by
  have unit : (Interval.ofBinary significand exponent).unit = powerOf 2 (exponent - 2) := rfl
  have value : (Interval.ofBinary significand exponent).value = 4 * significand := rfl
  have positive := normalized.positive
  have whole : 0 < 4 * significand * (powerOf 2 (exponent - 2)).1 :=
    Nat.mul_pos (by omega) (powerOf_pos (by decide) _).1
  have small : (powerOf 2 (exponent - 2)).2 ≤ 2 ^ (3 * places) := by
    have least := normalized.least
    apply powerOf_two_le
    rw [minExponent] at least
    omega
  apply Nat.div_pos _ (unit_ofBinary_pos significand exponent).2
  rw [unit, value]
  exact (small.trans (two_pow_le_ten_pow places)).trans (Nat.le_mul_of_pos_left _ whole)

theorem cast_raised_le (interval : Interval) (places : Nat) :
    (interval.raised places : ℚ) ≤ interval.value * quotient interval.unit * 10 ^ places := by
  rw [Interval.raised, quotient]
  apply Nat.cast_div_le.trans
  apply le_of_eq
  push_cast [Nat.pow_eq]
  ring

theorem value_mul_unit (significand : Nat) (exponent : Int) :
    ((Interval.ofBinary significand exponent).value : ℚ) *
      quotient (Interval.ofBinary significand exponent).unit = significand * 2 ^ exponent := by
  have value : ((Interval.ofBinary significand exponent).value : ℚ) = 4 * significand := by
    simp [Interval.ofBinary]
  rw [quotient_unit_ofBinary, value, zpow_sub₀ (by norm_num)]
  norm_num
  ring

theorem leadingExponent_le (normalized : IsNormalized significand exponent) :
    (10 : ℚ) ^ (Interval.ofBinary significand exponent).leadingExponent ≤
      significand * 2 ^ exponent := by
  have below := cast_raised_le (Interval.ofBinary significand exponent) 400
  rw [value_mul_unit] at below
  have power := pow_le_of_pos (raised_pos normalized (by decide : 359 ≤ 400))
  rw [Interval.leadingExponent]
  have written : 1 ≤ (decimalDigits ((Interval.ofBinary significand exponent).raised 400)).length :=
    List.length_pos_iff.mpr Nat.toDigits_ne_nil
  have leading (length : Nat) (written : 1 ≤ length) :
      (10 : ℚ) ^ ((length : Int) - 401) = 10 ^ (length - 1) / 10 ^ 400 := by
    rw [← zpow_natCast, ← zpow_natCast, ← zpow_sub₀ (by norm_num)]
    congr 1
    push_cast [written]
    ring
  rw [leading _ written, div_le_iff₀ (by positivity)]
  have power : ((10 ^ ((decimalDigits
      ((Interval.ofBinary significand exponent).raised 400)).length - 1) : ℕ) : ℚ) ≤
      (Interval.ofBinary significand exponent).raised 400 := by
    exact_mod_cast power
  push_cast at power
  exact power.trans below

/-- The shortest decimal of a double rounds to it. -/
theorem has_shortest (normalized : IsNormalized significand exponent) :
    (Interval.ofBinary significand exponent).Has
      ((shortest significand exponent).1 * 10 ^ (shortest significand exponent).2) := by
  have sixteen (leading : Int) :
      (10 : ℚ) ^ (leading + 1 - (17 : ℕ)) * 10 ^ 16 = 10 ^ leading := by
    rw [← zpow_natCast, ← zpow_add₀ (by norm_num)]
    congr 1
    norm_num
    ring
  have last : ((Interval.ofBinary significand exponent).gridPoint?
      ((Interval.ofBinary significand exponent).leadingExponent + 1 - (17 : ℕ))).isSome = true := by
    apply isSome_gridPoint?_of_le normalized
    rw [sixteen]
    exact leadingExponent_le normalized
  exact (Interval.contains_iff (unit_ofBinary_pos significand exponent).2 _ _).mp
    (contains_search last)

/-- The numbers that round to a positive double are positive. -/
theorem pos_of_has (normalized : IsNormalized significand exponent) {q : ℚ}
    (has : (Interval.ofBinary significand exponent).Has q) : 0 < q := by
  have positive := normalized.positive
  have unit_pos : (0 : ℚ) < quotient (Interval.ofBinary significand exponent).unit := by
    rw [quotient_unit_ofBinary]
    positivity
  have lower_pos : 0 < (Interval.ofBinary significand exponent).lower := by
    simp only [Interval.ofBinary]
    split_ifs <;> omega
  have lower_pos : (0 : ℚ) < (Interval.ofBinary significand exponent).lower := by
    exact_mod_cast lower_pos
  rw [Interval.Has] at has
  split_ifs at has
  · exact (mul_pos lower_pos unit_pos).trans_le has.1
  · exact (mul_pos lower_pos unit_pos).trans has.1

end FieldRules.Number
