import FieldRules.Proofs.Eval.Formatting

/-!
# Formats are shown part by part

A format is a sequence of segments, and each of them shows at most one argument, the
first one that is left.  So a format that does not end inside a directive can be put in
front of another one: the second is shown behind the first, with the arguments that the
first has left.
-/

namespace FieldRules.Format

variable {part : Segment} {parts : List Segment} {arguments : List Datum}

/-! ## One segment -/

/-- The number of arguments that a segment takes. -/
def Segment.takes (part : Segment) : Nat :=
  if part.shows.isSome then 1 else 0

/-- The number of arguments that segments take: one for each directive with another verb
than `%`. -/
def taken (parts : List Segment) : Nat :=
  (parts.filterMap Segment.shows).length

theorem taken_cons (part : Segment) (parts : List Segment) :
    taken (part :: parts) = part.takes + taken parts := by
  cases shows : part.shows with
  | none => simp [taken, Segment.takes, shows]
  | some shown => simp [taken, Segment.takes, shows, Nat.add_comm]

/-- The text of a segment with the argument that is next, if one is left. -/
def Segment.render (part : Segment) (argument : Option Datum) : Except Fault (List Char) :=
  match part with
  | .literal c => .ok [c]
  | .unfinished shape => .ok (shape.marks ++ "%!(NOVERB)".toList)
  | .directive shape verb =>
      if verb = '%' then .ok (shape.marks ++ ['%'])
      else
        match argument with
        | none => .ok (shape.marks ++ '%' :: '!' :: verb :: "(MISSING)".toList)
        | some argument => (shape.render verb argument).map (shape.marks ++ ·)

/-- A segment that takes no argument does not look at it. -/
theorem Segment.render_of_takes_eq_zero (nothing : part.takes = 0) (argument other : Option Datum) :
    part.render argument = part.render other := by
  cases part with
  | directive shape verb =>
      have percent : verb = '%' := by
        by_contra another
        simp [takes, shows, another] at nothing
      simp [render, percent]
  | _ => rfl

/-- Segments are shown one after the other. -/
theorem renderSegments_cons (part : Segment) (parts : List Segment) (arguments : List Datum) :
    renderSegments (part :: parts) arguments = (do
      let text ← part.render arguments.head?
      let after ← renderSegments parts (arguments.drop part.takes)
      .ok (text ++ after)) := by
  cases part with
  | literal c => rfl
  | unfinished shape => rfl
  | directive shape verb =>
      by_cases percent : verb = '%'
      · rw [renderSegments.eq_def]
        simp [Segment.render, Segment.takes, Segment.shows, percent]
      · cases arguments with
        | nil => simp [renderSegments, Segment.render, Segment.takes, Segment.shows, percent]
        | cons argument arguments =>
            simp only [renderSegments, Segment.render, Segment.takes, Segment.shows, percent,
              if_false, List.head?_cons, Option.isSome_some, if_true, List.drop_one, List.tail_cons]
            cases shape.render verb argument <;> simp [Except.map]

/-! ## Several segments -/

theorem renderSegments_append (first second : List Segment) (arguments : List Datum) :
    renderSegments (first ++ second) arguments = (do
      let before ← renderSegments first arguments
      let after ← renderSegments second (arguments.drop (taken first))
      .ok (before ++ after)) := by
  induction first generalizing arguments with
  | nil =>
      have nothing : taken [] = 0 := rfl
      rw [List.nil_append, nothing, List.drop_zero]
      cases renderSegments second arguments <;> rfl
  | cons part first ih =>
      rw [List.cons_append, renderSegments_cons, renderSegments_cons, ih, taken_cons, List.drop_drop]
      cases part.render arguments.head? with
      | error fault => rfl
      | ok text =>
          cases renderSegments first (arguments.drop part.takes) with
          | error fault => rfl
          | ok before =>
              cases renderSegments second (arguments.drop (part.takes + taken first)) with
              | error fault => rfl
              | ok after => simp

/-- Arguments behind those that segments take do not matter. -/
theorem renderSegments_take (parts : List Segment) (arguments : List Datum) :
    renderSegments parts (arguments.take (taken parts)) = renderSegments parts arguments := by
  induction parts generalizing arguments with
  | nil => rfl
  | cons part parts ih =>
      have shown : part.render (arguments.take (taken (part :: parts))).head? =
          part.render arguments.head? := by
        by_cases nothing : part.takes = 0
        · exact Segment.render_of_takes_eq_zero nothing _ _
        · have positive : taken (part :: parts) ≠ 0 := by
            rw [taken_cons]
            omega
          rw [List.head?_take, if_neg positive]
      have left : (arguments.take (taken (part :: parts))).drop part.takes =
          (arguments.drop part.takes).take (taken parts) := by
        rw [List.drop_take, taken_cons, Nat.add_sub_cancel_left]
      rw [renderSegments_cons, renderSegments_cons, shown, left, ih]

/-! ## Reading formats one after the other -/

/-- Behind a directive that has ended, reading starts again. -/
theorem segmentsFrom_append {pending : Option Directive} {first : List Char}
    (complete : ∀ directive, .unfinished directive ∉ segmentsFrom pending first)
    (second : List Char) :
    segmentsFrom pending (first ++ second) = segmentsFrom pending first ++ segments second := by
  induction first generalizing pending with
  | nil =>
      cases pending with
      | none => rfl
      | some directive => exact absurd List.mem_cons_self (complete directive)
  | cons c first ih =>
      cases pending with
      | none =>
          rw [List.cons_append, segmentsFrom, segmentsFrom]
          rw [segmentsFrom] at complete
          split_ifs at complete ⊢ with percent
          · exact ih complete
          · rw [ih fun directive mem => complete directive (List.mem_cons_of_mem _ mem)]
            rfl
      | some directive =>
          rw [List.cons_append, segmentsFrom, segmentsFrom]
          rw [segmentsFrom] at complete
          cases read : directive.read c with
          | some next =>
              rw [read] at complete
              exact ih complete
          | none =>
              rw [read] at complete
              simp only
              rw [ih fun directive mem => complete directive (List.mem_cons_of_mem _ mem)]
              rfl

theorem segments_of_no_percent {text : List Char} (plain : '%' ∉ text) :
    segments text = text.map .literal := by
  induction text with
  | nil => rfl
  | cons c text ih =>
      rw [List.mem_cons, not_or] at plain
      have next : segments (c :: text) = .literal c :: segments text := if_neg (Ne.symm plain.1)
      rw [next, ih plain.2, List.map_cons]

theorem renderSegments_literals (text : List Char) (arguments : List Datum) :
    renderSegments (text.map .literal) arguments = .ok text := by
  induction text with
  | nil => rfl
  | cons c text ih => rw [List.map_cons, renderSegments, ih, bind_ok]

/-- A text with each `%` doubled. -/
def doubled (text : List Char) : List Char :=
  text.flatMap fun c => if c = '%' then ['%', '%'] else [c]

theorem format_doubled (text : List Char) (arguments : List Datum) :
    format (doubled text) arguments = .ok text := by
  induction text with
  | nil => rfl
  | cons c text ih =>
      by_cases percent : c = '%'
      · subst percent
        have next : segments (doubled ('%' :: text)) =
            .directive .start '%' :: segments (doubled text) := rfl
        rw [format] at ih ⊢
        rw [next, renderSegments.eq_def]
        simp only [if_true, ih, bind_ok]
        rfl
      · have split : doubled (c :: text) = c :: doubled text := by
          simp [doubled, percent]
        have next : segments (c :: doubled text) = .literal c :: segments (doubled text) :=
          if_neg percent
        rw [format] at ih ⊢
        rw [split, next, renderSegments, ih, bind_ok]

end FieldRules.Format

namespace FieldRules

open Format

/-! ## Formats -/

/-- A format is complete when it does not end inside a directive. -/
def Format.Complete (format : String) : Prop :=
  ∀ directive, .unfinished directive ∉ segments format.toList

/-- The number of arguments that a format shows: one for each of its directives with
another verb than `%`. -/
def Format.shownCount (format : String) : Nat :=
  taken (segments format.toList)

/-- The text of a text of segments. -/
theorem sprintf_eq_map {format : String} {arguments : List Datum} :
    sprintf format arguments =
      (renderSegments (segments format.toList) arguments).map .ofList :=
  rfl

theorem sprintf_append {first : String} (complete : Complete first) (second : String)
    (arguments : List Datum) :
    sprintf (first ++ second) arguments = (do
      let before ← sprintf first arguments
      let after ← sprintf second (arguments.drop (shownCount first))
      .ok (before ++ after)) := by
  have read : segments (first ++ second).toList =
      segments first.toList ++ segments second.toList := by
    rw [String.toList_append]
    exact segmentsFrom_append complete second.toList
  simp only [sprintf_eq_map, read, renderSegments_append, shownCount]
  cases renderSegments (segments first.toList) arguments with
  | error fault => rfl
  | ok before =>
      cases renderSegments (segments second.toList)
          (arguments.drop (taken (segments first.toList))) with
      | error fault => rfl
      | ok after => simp [Except.map, String.ofList_append]

variable {format : String} {arguments : List Datum}

theorem sprintf_take (format : String) (arguments : List Datum) :
    sprintf format (arguments.take (shownCount format)) = sprintf format arguments := by
  rw [sprintf_eq_map, shownCount, renderSegments_take]
  rfl

/-- A written directive is a format by itself. -/
theorem Format.WrittenDirective.segments_ofList (written : WrittenDirective) :
    segments (String.ofList written.text).toList =
      [.directive written.directive written.verb] := by
  have whole := written.segments_text []
  rw [List.append_nil] at whole
  rw [String.toList_ofList, whole]
  rfl

theorem Format.WrittenDirective.complete (written : WrittenDirective) :
    Complete (.ofList written.text) := by
  intro directive mem
  rw [written.segments_ofList] at mem
  simp at mem

/-- A directive with the verb `%` takes no argument. -/
theorem sprintf_percent {written : WrittenDirective} (percent : written.verb = '%')
    (arguments : List Datum) :
    sprintf (.ofList written.text) arguments = .ok (.ofList (written.marks ++ ['%'])) := by
  have shown : (Segment.directive written.directive written.verb).render arguments.head? =
      .ok (written.directive.marks ++ ['%']) := if_pos percent
  rw [sprintf_eq_map, written.segments_ofList, renderSegments_cons, shown, written.marks_directive]
  simp [renderSegments, Except.map]

/-- A directive with another verb needs an argument. -/
theorem sprintf_missing {written : WrittenDirective} (another : written.verb ≠ '%') :
    sprintf (.ofList written.text) [] =
      .ok (.ofList (written.marks ++ '%' :: '!' :: written.verb :: "(MISSING)".toList)) := by
  have shown : (Segment.directive written.directive written.verb).render none =
      .ok (written.directive.marks ++ '%' :: '!' :: written.verb :: "(MISSING)".toList) :=
    if_neg another
  rw [sprintf_eq_map, written.segments_ofList, renderSegments_cons, List.head?_nil, shown,
    written.marks_directive]
  simp [renderSegments, Except.map]

theorem shownCount_percent {written : WrittenDirective} (percent : written.verb = '%') :
    shownCount (.ofList written.text) = 0 := by
  rw [shownCount, written.segments_ofList, percent]
  rfl

/-- Formats are shown directive by directive.  Behind a format that does not end inside a
directive, another format is shown as if it stood alone, with the arguments that the
first has left; so both have a text together exactly if each of them has one.  Text
without `%` is shown as it is.  A directive with the verb `%` shows a percent sign and
leaves all arguments to what follows, whatever its flags, its width and its precision
are.  Arguments that no directive shows do not matter.  Every directive with another
verb behind the last argument is shown as missing its own.  A text with each `%` doubled
is shown as the text. -/
theorem formats_shown_directive_by_directive :
    (∀ (first second : String) (arguments : List Datum), Complete first →
      sprintf (first ++ second) arguments = (do
        let before ← sprintf first arguments
        let after ← sprintf second (arguments.drop (shownCount first))
        .ok (before ++ after))) ∧
    (∀ (text : String) (arguments : List Datum), '%' ∉ text.toList →
      sprintf text arguments = .ok text) ∧
    (∀ (written : WrittenDirective) (second : String) (arguments : List Datum),
      written.verb = '%' →
        sprintf (.ofList written.text ++ second) arguments = (do
          let after ← sprintf second arguments
          .ok (.ofList (written.marks ++ ['%']) ++ after))) ∧
    (∀ (format : String) (arguments others : List Datum),
      shownCount format ≤ arguments.length →
        sprintf format (arguments ++ others) = sprintf format arguments) ∧
    (∀ (first : String) (written : WrittenDirective) (second : String) (arguments : List Datum),
      Complete first → arguments.length ≤ shownCount first → written.verb ≠ '%' →
        sprintf (first ++ (.ofList written.text ++ second)) arguments = (do
          let before ← sprintf first arguments
          let after ← sprintf second []
          .ok (before ++
            (.ofList (written.marks ++ '%' :: '!' :: written.verb :: "(MISSING)".toList) ++
              after)))) ∧
    ∀ (text : String) (arguments : List Datum),
      sprintf (.ofList (doubled text.toList)) arguments = .ok text := by
  refine ⟨fun first second arguments complete => sprintf_append complete second arguments,
    fun text arguments plain => ?_, fun written second arguments percent => ?_,
    fun format arguments others enough => ?_,
    fun first written second arguments complete few another => ?_, fun text arguments => ?_⟩
  · rw [sprintf_eq_map, segments_of_no_percent plain, renderSegments_literals, Except.map,
      String.ofList_toList]
  · rw [sprintf_append written.complete, sprintf_percent percent, shownCount_percent percent,
      List.drop_zero, bind_ok]
  · rw [← sprintf_take format (arguments ++ others), List.take_append_of_le_length enough,
      sprintf_take]
  · have none_left : arguments.drop (shownCount first) = [] := List.drop_eq_nil_of_le few
    rw [sprintf_append complete, none_left, sprintf_append written.complete,
      sprintf_missing another, List.drop_nil, bind_ok]
    simp only [bind_assoc, bind_ok]
  · rw [sprintf, String.toList_ofList, format_doubled, Except.map, String.ofList_toList]

/-- A name and a word behind it, a percent sign with a width, and a number that is not
there. -/
theorem words_percent_and_missing_number_shown :
    Complete "%s: " ∧
      sprintf ("%s: " ++ "%5s") [.text "ann", .text "ok"] = .ok "ann:    ok" ∧
      sprintf "no verbs" [.text "ann"] = .ok "no verbs" ∧
      sprintf (.ofList paddedPercent.text ++ "%s") [.text "ann"] = .ok "%ann" ∧
      sprintf "%s: " ([.text "ann"] ++ [.nil]) = .ok "ann: " ∧
      sprintf ("%s: " ++ (.ofList plainNumber.text ++ "%s")) [.text "ann"] =
        .ok "ann: %!d(MISSING)%!s(MISSING)" := by
  obtain ⟨append, plain, sign, beyond, missing, -⟩ := formats_shown_directive_by_directive
  have complete : Complete "%s: " := by
    intro directive mem
    have read : segments "%s: ".toList =
        [.directive .start 's', .literal ':', .literal ' '] := rfl
    rw [read] at mem
    simp at mem
  refine ⟨complete, ?_, ?_, ?_, ?_, ?_⟩
  · exact append "%s: " "%5s" [.text "ann", .text "ok"] complete
  · exact plain "no verbs" [.text "ann"] (by decide)
  · exact sign paddedPercent "%s" [.text "ann"] rfl
  · exact beyond "%s: " [.text "ann"] [.nil] (by decide)
  · exact missing "%s: " plainNumber "%s" [.text "ann"] complete (by decide) (by decide)

end FieldRules
