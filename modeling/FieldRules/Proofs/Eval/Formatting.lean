import FieldRules.Proofs.Eval.Directives
import FieldRules.Proofs.Outcome

/-!
# Which formats have a text

The directives of a format show its arguments in order, each but `%%` one of them.
There is one reason why a format with its arguments has no text: a number is shown
under `f` with more decimal places than can be shown, but not with so many that the
precision is given up.
-/

namespace FieldRules.Format

/-! ## Verbs -/

/-- There is one fault, so a computation without it has a result. -/
theorem exists_ok_iff {α : Type} {outcome : Except Fault α} :
    (∃ value, outcome = .ok value) ↔ outcome ≠ .error .precisionOutOfRange := by
  cases outcome with
  | error fault => cases fault; simp
  | ok value => simp

/-- A computation fails at its first part, or for a reason that later parts have whatever
the result of the first is. -/
theorem bind_eq_fault_iff {α β : Type} {first : Except Fault α} {next : α → Except Fault β}
    {reason : Prop} (later : ∀ value, next value = .error .precisionOutOfRange ↔ reason) :
    (first >>= next) = .error .precisionOutOfRange ↔
      first = .error .precisionOutOfRange ∨ reason := by
  cases first with
  | error fault => cases fault; simp
  | ok value => simp [later]

/-- A computation behind which nothing fails. -/
theorem bind_ok_eq_fault_iff {α β : Type} {first : Except Fault α} (result : α → β) :
    (first >>= fun value => Except.ok (result value)) = .error .precisionOutOfRange ↔
      first = .error .precisionOutOfRange := by
  have nothing (value : α) : (Except.ok (result value) : Except Fault β) =
      .error .precisionOutOfRange ↔ False := by simp
  rw [bind_eq_fault_iff nothing, or_false]

variable {directive : Directive} {verb : Char} {argument : Datum} {arguments : List Datum}
  {part : Segment} {parts : List Segment}

theorem exists_verbText {precision : Option Nat} (other : verb ≠ 'f') :
    ∃ text, verbText verb precision argument = .ok text := by
  unfold verbText
  rw [if_neg other]
  repeat' split
  all_goals exact ⟨_, rfl⟩

theorem verbText_eq_error_iff {precision : Option Nat} :
    verbText verb precision argument = .error .precisionOutOfRange ↔
      verb = 'f' ∧ (∃ x, argument = .number x) ∧ maxDecimalPlaces < precision.getD 6 := by
  by_cases places : verb = 'f'
  · subst places
    cases argument with
    | number x =>
        have text : verbText 'f' precision (.number x) =
            if precision.getD 6 ≤ maxDecimalPlaces then
              .ok (Number.renderPlaces (precision.getD 6) x)
            else .error .precisionOutOfRange := rfl
        rw [text]
        split_ifs with few
        · simp [few]
        · simp [Nat.lt_of_not_le few]
    | _ => simp [verbText]
  · have shows : ∃ text, verbText verb precision argument = .ok text := exists_verbText places
    rcases shows with ⟨text, shown⟩
    simp [shown, places]

/-- A directive asks for more decimal places of a number than can be shown, and its
precision is not given up. -/
def Directive.Overflows (directive : Directive) (verb : Char) (argument : Datum) : Prop :=
  verb = 'f' ∧ (∃ x, argument = .number x) ∧
    ∃ places, directive.precision = some places ∧ maxDecimalPlaces < places ∧ places ≤ maxWidth

theorem places_admitted {precision : Option Nat} :
    maxDecimalPlaces < (admitted precision).getD 6 ↔
      ∃ places, precision = some places ∧ maxDecimalPlaces < places ∧ places ≤ maxWidth := by
  cases precision with
  | none => simp [admitted, maxDecimalPlaces]
  | some places =>
      by_cases small : places ≤ maxWidth
      · simp [admitted, Option.filter_some, small]
      · simp [admitted, Option.filter_some, small, maxDecimalPlaces]

theorem Directive.render_eq_error_iff :
    directive.render verb argument = .error .precisionOutOfRange ↔
      directive.Overflows verb argument := by
  rw [render, bind_ok_eq_fault_iff, verbText_eq_error_iff, Overflows, places_admitted]

/-! ## Formats -/

/-- The directive and the verb of a segment that shows an argument. -/
def Segment.shows : Segment → Option (Directive × Char)
  | .directive shape verb => if verb = '%' then none else some (shape, verb)
  | _ => none

/-- A directive overflows on the argument that it shows. -/
def TooPrecise (parts : List Segment) (arguments : List Datum) : Prop :=
  ∃ shown ∈ (parts.filterMap Segment.shows).zip arguments,
    shown.1.1.Overflows shown.1.2 shown.2

theorem not_tooPrecise_nil : ¬ TooPrecise parts [] := by
  simp [TooPrecise]

theorem tooPrecise_cons_of_shows_none (other : part.shows = none) :
    TooPrecise (part :: parts) arguments ↔ TooPrecise parts arguments := by
  rw [TooPrecise, List.filterMap_cons_none other, TooPrecise]

theorem tooPrecise_cons_iff (shows : part.shows = some (directive, verb)) :
    TooPrecise (part :: parts) (argument :: arguments) ↔
      directive.Overflows verb argument ∨ TooPrecise parts arguments := by
  rw [TooPrecise, List.filterMap_cons_some shows, List.zip_cons_cons]
  simp [TooPrecise]

/-- Segments have no text with their arguments exactly if a directive overflows. -/
theorem renderSegments_eq_error_iff :
    renderSegments parts arguments = .error .precisionOutOfRange ↔
      TooPrecise parts arguments := by
  induction parts generalizing arguments with
  | nil => simp [renderSegments, TooPrecise]
  | cons part parts ih =>
      cases part with
      | literal c =>
          rw [renderSegments, bind_ok_eq_fault_iff, ih, tooPrecise_cons_of_shows_none rfl]
      | unfinished shape =>
          rw [renderSegments, bind_ok_eq_fault_iff, ih, tooPrecise_cons_of_shows_none rfl]
      | directive shape verb =>
          by_cases percent : verb = '%'
          · have other : (Segment.directive shape verb).shows = none := if_pos percent
            rw [renderSegments.eq_def]
            simp only [if_pos percent, bind_ok_eq_fault_iff, ih,
              tooPrecise_cons_of_shows_none other]
          · have shows : (Segment.directive shape verb).shows = some (shape, verb) :=
              if_neg percent
            cases arguments with
            | nil =>
                rw [renderSegments, if_neg percent, bind_ok_eq_fault_iff, ih]
                simp only [not_tooPrecise_nil]
            | cons argument arguments =>
                rw [renderSegments, if_neg percent, tooPrecise_cons_iff shows]
                rw [bind_eq_fault_iff fun text => (bind_ok_eq_fault_iff _).trans ih,
                  Directive.render_eq_error_iff]

end FieldRules.Format

namespace FieldRules

open Format

/-- A format with its arguments has a text exactly if none of its directives
overflows. -/
theorem exists_sprintf_iff {format : String} {arguments : List Datum} :
    (∃ text, sprintf format arguments = .ok text) ↔
      ¬ TooPrecise (segments format.toList) arguments := by
  rw [exists_ok_iff, Ne, sprintf, ← renderSegments_eq_error_iff, Format.format]
  cases renderSegments (segments format.toList) arguments with
  | error fault => simp [Except.map]
  | ok text => simp [Except.map]

/-- A number has no text under a directive with the verb `f`, whatever its flags and its
width are, exactly if the precision is more than 65535 and no more than a million. -/
theorem sprintf_number_eq_error_iff {flags width digits : List Char} {x : Float}
    (flagged : ∀ c ∈ flags, c = '-' ∨ c = '0') (widthDigits : ∀ c ∈ width, c.isDigit = true)
    (noFlag : width.head? ≠ some '0') (precisionDigits : ∀ c ∈ digits, c.isDigit = true) :
    sprintf (.ofList ('%' :: (flags ++ (width ++ '.' :: (digits ++ ['f']))))) [.number x] =
        .error .precisionOutOfRange ↔
      65535 < Number.digitsValue digits ∧ Number.digitsValue digits ≤ 1000000 := by
  let written : WrittenDirective :=
    { flags, width, precision := some digits, verb := 'f', flagged, width_digits := widthDigits,
      width_head := noFlag, precision_digits := by simpa using precisionDigits,
      verb_not_digit := rfl, verb_not_point := by simp, verb_not_flag := by simp }
  have segment : segments ('%' :: (flags ++ (width ++ '.' :: (digits ++ ['f'])))) =
      [.directive written.directive 'f'] := by
    have whole := written.segments_text []
    rwa [List.append_nil] at whole
  have counts : maxDecimalPlaces < counted (Number.digitsValue digits) ∧
      counted (Number.digitsValue digits) ≤ maxWidth ↔
        65535 < Number.digitsValue digits ∧ Number.digitsValue digits ≤ 1000000 := by
    simp only [counted, greatestCount, maxDecimalPlaces, maxWidth]
    omega
  have overflows : written.directive.Overflows 'f' (.number x) ↔
      65535 < Number.digitsValue digits ∧ Number.digitsValue digits ≤ 1000000 := by
    constructor
    · rintro ⟨-, -, places, same, bounds⟩
      cases same
      exact counts.mp bounds
    · intro bounds
      exact ⟨rfl, ⟨x, rfl⟩, _, rfl, counts.mpr bounds⟩
  rw [← not_iff_not, ← Ne, ← exists_ok_iff, exists_sprintf_iff, String.toList_ofList, segment,
    tooPrecise_cons_iff rfl, overflows, or_iff_left not_tooPrecise_nil]

end FieldRules
