import FieldRules.Eval.Format
import FieldRules.Number.Numeral

/-!
# Directives as they are written

A directive is written as `%` with flags, the digits of a width, a point with the
digits of a precision, and a verb.  Flags are read first, so a zero in front of a width
is a flag and not one of its digits.

Sizes are counted up to the greatest word.  That is far above the greatest size that is
admitted, so whatever is said about a size holds of the exact value of its digits,
however many there are.
-/

namespace FieldRules.Format

open Number (digitsValue)

/-! ## Counting digits -/

/-- A size as it is counted. -/
def counted (size : Nat) : Nat :=
  min size greatestCount

theorem appendDigit_counted (value : Nat) (digit : Char) :
    appendDigit (some (counted value)) digit =
      some (counted (10 * value + (digit.toNat - '0'.toNat))) := by
  simp only [appendDigit, counted, Option.getD_some, Option.some.injEq]
  omega

/-- Digits behind a number are counted as if the number had not been cut off. -/
theorem foldl_appendDigit_counted (digits : List Char) (value : Nat) :
    digits.foldl appendDigit (some (counted value)) =
      some (counted
        (digits.foldl (fun value digit => 10 * value + (digit.toNat - '0'.toNat)) value)) := by
  induction digits generalizing value with
  | nil => rfl
  | cons c digits ih => rw [List.foldl_cons, List.foldl_cons, appendDigit_counted, ih]

theorem foldl_appendDigit_zero (digits : List Char) :
    digits.foldl appendDigit (some 0) = some (counted (digitsValue digits)) :=
  foldl_appendDigit_counted digits 0

theorem foldl_appendDigit_none {digits : List Char} (nonempty : digits ≠ []) :
    digits.foldl appendDigit none = some (counted (digitsValue digits)) := by
  cases digits with
  | nil => exact absurd rfl nonempty
  | cons c digits => exact foldl_appendDigit_counted digits _

theorem counted_le_maxWidth_iff {size : Nat} : counted size ≤ maxWidth ↔ size ≤ maxWidth := by
  simp only [counted, greatestCount, maxWidth]
  omega

theorem counted_eq_self {size : Nat} (small : size ≤ maxWidth) : counted size = size := by
  simp only [counted, greatestCount, maxWidth] at small ⊢
  omega

/-- A size is admitted by its exact value. -/
theorem admitted_map_counted (size : Option Nat) : admitted (size.map counted) = admitted size := by
  cases size with
  | none => rfl
  | some size =>
      simp only [admitted, Option.map_some, Option.filter_some, decide_eq_true_eq,
        counted_le_maxWidth_iff]
      by_cases small : size ≤ maxWidth
      · rw [if_pos small, if_pos small, counted_eq_self small]
      · rw [if_neg small, if_neg small]

theorem any_map_counted (size : Option Nat) :
    (size.map counted).any (maxWidth < ·) = size.any (maxWidth < ·) := by
  cases size with
  | none => rfl
  | some size =>
      have beyond : maxWidth < counted size ↔ maxWidth < size := by
        rw [← Nat.not_le, counted_le_maxWidth_iff, Nat.not_le]
      exact decide_eq_decide.mpr beyond

/-! ## Reading character by character -/

section

variable {directive next : Directive} {flags digits rest : List Char} {c : Char}

theorem segmentsFrom_cons (read : directive.read c = some next) :
    segmentsFrom (some directive) (c :: rest) = segmentsFrom (some next) rest := by
  rw [segmentsFrom, read]

theorem segmentsFrom_verb (ends : directive.read c = none) :
    segmentsFrom (some directive) (c :: rest) = .directive directive c :: segments rest := by
  rw [segmentsFrom, ends]
  rfl

/-- Flags are taken up in any order and number. -/
theorem segmentsFrom_flags (flagged : ∀ c ∈ flags, c = '-' ∨ c = '0') (left zero : Bool) :
    segmentsFrom (some ⟨left, zero, none, none⟩) (flags ++ rest) =
      segmentsFrom (some ⟨left || flags.contains '-', zero || flags.contains '0', none, none⟩)
        rest := by
  induction flags generalizing left zero with
  | nil => simp
  | cons c flags ih =>
      rcases List.forall_mem_cons.mp flagged with ⟨rfl | rfl, others⟩
      · have read : Directive.read ⟨left, zero, none, none⟩ '-' = some ⟨true, zero, none, none⟩ :=
          rfl
        rw [List.cons_append, segmentsFrom_cons read, ih others]
        simp
      · have read : Directive.read ⟨left, zero, none, none⟩ '0' = some ⟨left, true, none, none⟩ :=
          rfl
        rw [List.cons_append, segmentsFrom_cons read, ih others]
        simp

theorem ne_point_of_isDigit (digit : c.isDigit = true) : c ≠ '.' := by
  rintro rfl
  cases digit

/-- A digit of the width: the first one is none of the flags. -/
theorem read_widthDigit (digit : c.isDigit = true) {width : Option Nat}
    (first : width = none → c ≠ '0') (left zero : Bool) :
    Directive.read ⟨left, zero, width, none⟩ c =
      some ⟨left, zero, appendDigit width c, none⟩ := by
  cases width with
  | none => simp [Directive.read, ne_point_of_isDigit digit, digit, first rfl]
  | some width => simp [Directive.read, ne_point_of_isDigit digit, digit]

theorem segmentsFrom_widthDigits (valid : ∀ c ∈ digits, c.isDigit = true) (left zero : Bool)
    (width : Nat) :
    segmentsFrom (some ⟨left, zero, some width, none⟩) (digits ++ rest) =
      segmentsFrom (some ⟨left, zero, digits.foldl appendDigit (some width), none⟩) rest := by
  induction digits generalizing width with
  | nil => rfl
  | cons c digits ih =>
      rcases List.forall_mem_cons.mp valid with ⟨digit, valid⟩
      rw [List.cons_append, segmentsFrom_cons (read_widthDigit digit (by simp) _ _)]
      exact ih valid _

/-- The digits of a width are counted together. -/
theorem segmentsFrom_width (valid : ∀ c ∈ digits, c.isDigit = true)
    (noFlag : digits.head? ≠ some '0') (left zero : Bool) :
    segmentsFrom (some ⟨left, zero, none, none⟩) (digits ++ rest) =
      segmentsFrom (some ⟨left, zero, digits.foldl appendDigit none, none⟩) rest := by
  cases digits with
  | nil => rfl
  | cons c digits =>
      rcases List.forall_mem_cons.mp valid with ⟨digit, others⟩
      have notZero : c ≠ '0' := fun zero => noFlag (congrArg some zero)
      rw [List.cons_append, segmentsFrom_cons (read_widthDigit digit (fun _ => notZero) _ _)]
      exact segmentsFrom_widthDigits others _ _ _

/-- The digits of a precision are counted together. -/
theorem segmentsFrom_precision (valid : ∀ c ∈ digits, c.isDigit = true) (left zero : Bool)
    (width : Option Nat) (precision : Nat) :
    segmentsFrom (some ⟨left, zero, width, some precision⟩) (digits ++ rest) =
      segmentsFrom (some ⟨left, zero, width, digits.foldl appendDigit (some precision)⟩) rest := by
  induction digits generalizing precision with
  | nil => rfl
  | cons c digits ih =>
      rcases List.forall_mem_cons.mp valid with ⟨digit, valid⟩
      have read : Directive.read ⟨left, zero, width, some precision⟩ c =
          some ⟨left, zero, width, appendDigit (some precision) c⟩ := by
        simp [Directive.read, digit]
      rw [List.cons_append, segmentsFrom_cons read]
      exact ih valid _

end

/-! ## Written directives -/

/-- A directive as it is written.  Its parts are told apart: the width starts with
another digit than `0`, and the verb is no further character of the parts before it. -/
structure WrittenDirective where
  flags : List Char
  /-- The digits of the width. -/
  width : List Char
  /-- The digits behind the point, if there is a point. -/
  precision : Option (List Char)
  verb : Char
  flagged : ∀ c ∈ flags, c = '-' ∨ c = '0'
  width_digits : ∀ c ∈ width, c.isDigit = true
  width_head : width.head? ≠ some '0'
  precision_digits : ∀ digits ∈ precision, ∀ c ∈ digits, c.isDigit = true
  verb_not_digit : verb.isDigit = false
  verb_not_point : precision = none → verb ≠ '.'
  verb_not_flag : precision = none → width = [] → verb ≠ '-'

namespace WrittenDirective

variable (written : WrittenDirective)

/-- The point and the digits of a precision. -/
def precisionText : Option (List Char) → List Char
  | none => []
  | some digits => '.' :: digits

/-- The text of a directive. -/
def text : List Char :=
  '%' :: (written.flags ++ (written.width ++ (precisionText written.precision ++ [written.verb])))

/-- The exact value of the digits of the width, zero if there are none. -/
def widthValue : Nat :=
  digitsValue written.width

/-- The exact value of the digits of the precision, if there is a point. -/
def precisionValue : Option Nat :=
  written.precision.map digitsValue

/-- What a directive is read as. -/
def directive : Directive where
  left := written.flags.contains '-'
  zero := written.flags.contains '0'
  width := written.width.foldl appendDigit none
  precision := written.precisionValue.map counted

/-- The verb ends the directive. -/
theorem read_verb : written.directive.read written.verb = none := by
  have noDigit := written.verb_not_digit
  cases point : written.precision with
  | some digits => simp [Directive.read, directive, precisionValue, point, noDigit]
  | none =>
      have noPoint := written.verb_not_point point
      have notZero : written.verb ≠ '0' := by
        intro zero
        rw [zero] at noDigit
        cases noDigit
      by_cases unset : written.width = []
      · have noFlag := written.verb_not_flag point unset
        simp [Directive.read, directive, precisionValue, point, noDigit, noPoint, notZero, unset,
          noFlag]
      · have counts := foldl_appendDigit_none unset
        simp [Directive.read, directive, precisionValue, point, noDigit, noPoint, counts,
          notZero]

theorem segmentsFrom_precisionText (left zero : Bool) (width : Option Nat) (rest : List Char) :
    segmentsFrom (some ⟨left, zero, width, none⟩) (precisionText written.precision ++ rest) =
      segmentsFrom (some ⟨left, zero, width, written.precisionValue.map counted⟩) rest := by
  cases point : written.precision with
  | none => simp [precisionText, precisionValue, point]
  | some digits =>
      have read : Directive.read ⟨left, zero, width, none⟩ '.' = some ⟨left, zero, width, some 0⟩ :=
        rfl
      rw [precisionText, List.cons_append, segmentsFrom_cons read,
        segmentsFrom_precision (written.precision_digits digits point), foldl_appendDigit_zero,
        precisionValue, point]
      rfl

/-- A written directive is one segment. -/
theorem segments_text (rest : List Char) :
    segments (written.text ++ rest) =
      .directive written.directive written.verb :: segments rest := by
  calc
    segments (written.text ++ rest) =
        segmentsFrom (some .start) (written.flags ++ (written.width ++
          (precisionText written.precision ++ written.verb :: rest))) := by
      simp [text, segments, segmentsFrom]
    _ = segmentsFrom (some written.directive) (written.verb :: rest) := by
      rw [Directive.start, segmentsFrom_flags written.flagged,
        segmentsFrom_width written.width_digits written.width_head, segmentsFrom_precisionText,
        Bool.false_or, Bool.false_or]
      rfl
    _ = .directive written.directive written.verb :: segments rest :=
      segmentsFrom_verb written.read_verb

/-! ### Sizes -/

/-- The width that is kept: one that is too large is dropped. -/
def keptWidth : Nat :=
  if maxWidth < written.widthValue then 0 else written.widthValue

/-- The precision that is kept: one that is too large is dropped. -/
def keptPrecision : Option Nat :=
  written.precisionValue.filter (· ≤ maxWidth)

/-- The marks for sizes that are too large. -/
def marks : List Char :=
  (if maxWidth < written.widthValue then "%!(BADWIDTH)".toList else []) ++
    if ∃ size ∈ written.precisionValue, maxWidth < size then "%!(BADPREC)".toList else []

/-- A width without digits is zero. -/
theorem width_directive :
    written.directive.width = none ∧ written.widthValue = 0 ∨
      written.directive.width = some (counted written.widthValue) := by
  by_cases unset : written.width = []
  · left
    rw [directive, widthValue, unset]
    exact ⟨rfl, rfl⟩
  · right
    exact foldl_appendDigit_none unset

theorem admitted_width : (admitted written.directive.width).getD 0 = written.keptWidth := by
  rcases written.width_directive with ⟨unset, zero⟩ | counts
  · rw [unset, keptWidth, zero, if_neg (Nat.not_lt_zero _)]
    rfl
  · have kept : admitted (some (counted written.widthValue)) = admitted (some written.widthValue) :=
      admitted_map_counted (some written.widthValue)
    rw [counts, kept, admitted, keptWidth, Option.filter_some]
    by_cases large : maxWidth < written.widthValue
    · simp [large, Nat.not_le_of_lt large]
    · simp [large, Nat.le_of_not_lt large]

theorem admitted_precision : admitted written.directive.precision = written.keptPrecision :=
  admitted_map_counted _

theorem marks_directive : written.directive.marks = written.marks := by
  have wide : written.directive.width.any (maxWidth < ·) = decide (maxWidth < written.widthValue) := by
    rcases written.width_directive with ⟨unset, zero⟩ | counts
    · rw [unset, zero]
      rfl
    · rw [counts]
      exact any_map_counted (some written.widthValue)
  have precise : written.directive.precision.any (maxWidth < ·) =
      written.precisionValue.any (maxWidth < ·) := any_map_counted _
  rw [Directive.marks, marks, wide, precise]
  simp only [decide_eq_true_eq, Option.any_eq_true, Option.mem_def]

end WrittenDirective

/-! ## Some directives -/

/-- The directive `%-5%`. -/
def paddedPercent : WrittenDirective where
  flags := ['-']
  width := ['5']
  precision := none
  verb := '%'
  flagged := List.forall_mem_singleton.mpr (.inl rfl)
  width_digits := List.forall_mem_singleton.mpr rfl
  width_head := by decide
  precision_digits := by simp
  verb_not_digit := rfl
  verb_not_point := by decide
  verb_not_flag := by decide

/-- The directive `%d`. -/
def plainNumber : WrittenDirective where
  flags := []
  width := []
  precision := none
  verb := 'd'
  flagged := List.forall_mem_nil _
  width_digits := List.forall_mem_nil _
  width_head := by decide
  precision_digits := by simp
  verb_not_digit := rfl
  verb_not_point := by decide
  verb_not_flag := by decide

/-- The directive `%05d`. -/
def zeroFilled : WrittenDirective where
  flags := ['0']
  width := ['5']
  precision := none
  verb := 'd'
  flagged := List.forall_mem_singleton.mpr (.inr rfl)
  width_digits := List.forall_mem_singleton.mpr rfl
  width_head := by decide
  precision_digits := by simp
  verb_not_digit := rfl
  verb_not_point := by decide
  verb_not_flag := by decide

/-- The directive `%-99999999999999999999.1s`. -/
def overwide : WrittenDirective where
  flags := ['-']
  width := "99999999999999999999".toList
  precision := some ['1']
  verb := 's'
  flagged := List.forall_mem_singleton.mpr (.inl rfl)
  width_digits := List.all_eq_true.mp rfl
  width_head := by decide
  precision_digits digits mem := Option.mem_some.mp mem ▸ List.forall_mem_singleton.mpr rfl
  verb_not_digit := rfl
  verb_not_point := by simp
  verb_not_flag := by simp

/-- The directive `%80000.70000f`. -/
def wideFraction : WrittenDirective where
  flags := []
  width := "80000".toList
  precision := some "70000".toList
  verb := 'f'
  flagged := List.forall_mem_nil _
  width_digits := List.all_eq_true.mp rfl
  width_head := by decide
  precision_digits digits mem := Option.mem_some.mp mem ▸ List.all_eq_true.mp rfl
  verb_not_digit := rfl
  verb_not_point := by simp
  verb_not_flag := by simp

end FieldRules.Format
