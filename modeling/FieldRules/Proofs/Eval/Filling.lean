import FieldRules.Proofs.Eval.Concatenation

/-!
# Directives fill their argument to a width

A directive shows its argument as its verb says, with as many characters put in as are
missing to its width.  Sizes of more than a million are marked and given up, which is
decided by the exact value of their digits.
-/

namespace FieldRules.Format

variable {written : WrittenDirective} {argument : Datum} {text shown : List Char} {missing : Nat}

/-! ## Filled texts -/

namespace WrittenDirective

/-- Zeros fill the text of a number under a verb for numbers when the flag is given. -/
def FillsZeros (written : WrittenDirective) (argument : Datum) : Prop :=
  '0' ∈ written.flags ∧ written.verb ∈ ['d', 'f', 'x', 'v'] ∧ ∃ x, argument = .number x

/-- A text with as many characters put in as are missing: spaces behind it if the flag `-`
is given, else zeros behind its sign, else spaces in front of it. -/
inductive Fills (written : WrittenDirective) (argument : Datum) (missing : Nat) :
    (text shown : List Char) → Prop
  | behind (left : '-' ∈ written.flags) (text : List Char) :
      Fills written argument missing text (text ++ List.replicate missing ' ')
  | zeros (right : '-' ∉ written.flags) (zeros : written.FillsZeros argument)
      {sign digits : List Char} (split : sign = ['-'] ∨ sign = [] ∧ digits.head? ≠ some '-') :
      Fills written argument missing (sign ++ digits)
        (sign ++ List.replicate missing '0' ++ digits)
  | front (right : '-' ∉ written.flags) (noZeros : ¬ written.FillsZeros argument)
      (text : List Char) :
      Fills written argument missing text (List.replicate missing ' ' ++ text)

/-- All missing characters are put in, and nothing else. -/
theorem Fills.length_eq (fills : written.Fills argument missing text shown) :
    shown.length = text.length + missing := by
  cases fills with
  | behind left text => rw [List.length_append, List.length_replicate]
  | zeros right zeros split =>
      simp only [List.length_append, List.length_replicate]
      omega
  | front right noZeros text => rw [List.length_append, List.length_replicate, Nat.add_comm]

end WrittenDirective

theorem isNumeric_iff {verb : Char} :
    isNumeric verb argument = true ↔ verb ∈ ['d', 'f', 'x', 'v'] ∧ ∃ x, argument = .number x := by
  have number : argument.number?.isSome = true ↔ ∃ x, argument = .number x := by
    cases argument <;> simp [Datum.number?]
  rw [isNumeric, Bool.and_eq_true, number]
  simp [or_assoc]

theorem WrittenDirective.fillsZeros_iff :
    written.FillsZeros argument ↔
      (written.directive.zero && isNumeric written.verb argument) = true := by
  rw [FillsZeros, Bool.and_eq_true, isNumeric_iff, directive, List.contains_iff_mem]

/-- The text of an argument is filled as the flags say. -/
theorem WrittenDirective.fills_fill (written : WrittenDirective) (argument : Datum) (width : Nat)
    (text : List Char) :
    written.Fills argument (width - text.length) text
      (fill written.directive.left written.directive.zero (isNumeric written.verb argument) width
        text) := by
  have left_iff : written.directive.left = true ↔ '-' ∈ written.flags := List.contains_iff_mem
  unfold fill
  split_ifs with left zeros
  · exact .behind (left_iff.mp left) text
  · have right : '-' ∉ written.flags := fun mem => left (left_iff.mpr mem)
    have filled := fillsZeros_iff.mpr zeros
    split
    · rename_i digits
      exact .zeros right filled (.inl rfl)
    · rename_i noSign
      refine .zeros right filled (.inr ⟨rfl, fun sign => ?_⟩)
      rcases List.head?_eq_some_iff.mp sign with ⟨digits, same⟩
      exact noSign digits same
  · have right : '-' ∉ written.flags := fun mem => left (left_iff.mpr mem)
    exact .front right (fun filled => zeros (fillsZeros_iff.mp filled)) text

/-- What a directive shows of the argument that is next. -/
theorem WrittenDirective.sprintf_text (another : written.verb ≠ '%') (argument : Datum)
    (others : List Datum) :
    sprintf (.ofList written.text) (argument :: others) =
      (verbText written.verb written.keptPrecision argument).map fun text =>
        .ofList (written.marks ++ fill written.directive.left written.directive.zero
          (isNumeric written.verb argument) written.keptWidth text) := by
  have shown : (Segment.directive written.directive written.verb).render (some argument) =
      (written.directive.render written.verb argument).map (written.directive.marks ++ ·) :=
    if_neg another
  rw [sprintf_eq_map, written.segments_ofList, renderSegments_cons, List.head?_cons, shown,
    written.marks_directive, Directive.render, written.admitted_precision, written.admitted_width]
  cases verbText written.verb written.keptPrecision argument with
  | error fault => rfl
  | ok text => simp [renderSegments, Except.map]

end FieldRules.Format

namespace FieldRules

open Format

/-- A directive with another verb than `%` marks its width and its precision and gives
them up exactly if the values of their digits are more than a million.  Then it shows the
text of the argument under its verb and the precision that is left, filled to the width
that is left and not cut off: with spaces behind it if the flag `-` is given, else with
zeros behind its sign if the flag `0` is given and a number is shown under one of the verbs
`d`, `f`, `x` and `v`, else with spaces in front of it.  The argument has no such text
exactly if it is a number under `f` with a precision from 65536 to a million. -/
theorem arguments_filled_to_width (written : WrittenDirective) (another : written.verb ≠ '%')
    (argument : Datum) (others : List Datum) :
    (∀ text, verbText written.verb written.keptPrecision argument = .ok text →
      ∃ shown, sprintf (.ofList written.text) (argument :: others) =
          .ok (.ofList (written.marks ++ shown)) ∧
        shown.length = max written.keptWidth text.length ∧
        written.Fills argument (written.keptWidth - text.length) text shown) ∧
    ((∃ text, verbText written.verb written.keptPrecision argument = .ok text) ↔
      ¬ (written.verb = 'f' ∧ (∃ x, argument = .number x) ∧
        ∃ places ∈ written.precisionValue, 65535 < places ∧ places ≤ 1000000)) ∧
    ((∃ shown, sprintf (.ofList written.text) (argument :: others) = .ok shown) ↔
      ∃ text, verbText written.verb written.keptPrecision argument = .ok text) := by
  constructor
  · intro text rendered
    have fills := written.fills_fill argument written.keptWidth text
    refine ⟨_, ?_, ?_, fills⟩
    · rw [written.sprintf_text another, rendered]
      rfl
    · rw [fills.length_eq]
      omega
  constructor
  · have places : maxDecimalPlaces < written.keptPrecision.getD 6 ↔
        ∃ places ∈ written.precisionValue, 65535 < places ∧ places ≤ 1000000 := places_admitted
    rw [exists_ok_iff, Ne, verbText_eq_error_iff, places]
  · rw [written.sprintf_text another]
    cases verbText written.verb written.keptPrecision argument <;> simp [Except.map]

/-- A negative number with zeros behind its sign, and a word whose width is given up. -/
theorem number_and_word_filled :
    let number := Datum.number (Number.ofInt (-42))
    zeroFilled.verb ≠ '%' ∧ overwide.verb ≠ '%' ∧
      (∃ shown, sprintf "%05d" [number] = .ok (.ofList shown) ∧ shown.length = 5 ∧
        zeroFilled.Fills number 2 ['-', '4', '2'] shown) ∧
      (∃ shown, sprintf "%-99999999999999999999.1s" [.text "ann"] =
          .ok (.ofList ("%!(BADWIDTH)".toList ++ shown)) ∧ shown.length = 1 ∧
        overwide.Fills (.text "ann") 0 ['a'] shown) ∧
      sprintf "%05d" [number] = .ok "-0042" := by
  intro number
  have zerosVerb : zeroFilled.verb ≠ '%' := by decide
  have wideVerb : overwide.verb ≠ '%' := by decide
  have filled := (arguments_filled_to_width zeroFilled zerosVerb number []).1 ['-', '4', '2'] rfl
  have dropped := (arguments_filled_to_width overwide wideVerb (.text "ann") []).1 ['a'] rfl
  exact ⟨zerosVerb, wideVerb, filled, dropped, rfl⟩

/-- One with more than 65535 decimal places is not shown, so not in a greater width either. -/
theorem wide_fraction_not_shown :
    String.ofList wideFraction.text = "%80000.70000f" ∧ wideFraction.keptWidth = 80000 ∧
      wideFraction.keptPrecision = some 70000 ∧
      ¬ ∃ shown, sprintf "%80000.70000f" [.number (Number.ofInt 1)] = .ok shown := by
  have digits : ∀ c ∈ ['7', '0', '0', '0', '0'], c.isDigit = true := List.all_eq_true.mp rfl
  have widthDigits : ∀ c ∈ ['8', '0', '0', '0', '0'], c.isDigit = true := List.all_eq_true.mp rfl
  have unshown : sprintf "%80000.70000f" [.number (Number.ofInt 1)] =
      .error .precisionOutOfRange :=
    (sprintf_number_eq_error_iff (List.forall_mem_nil _) widthDigits (by decide) digits).mpr
      (by decide)
  refine ⟨rfl, rfl, rfl, ?_⟩
  rw [unshown]
  rintro ⟨shown, same⟩
  cases same

end FieldRules
