import FieldRules.Proofs.Expr.Blocks

/-!
# Blank characters around an annotation

Layout in front of an annotation and behind it never matters.  Of the other blank
characters, those behind a single expression are trimmed away.  In front of an annotation
and behind its blocks they are part of no annotation that is read.
-/

namespace FieldRules

open FieldRules.Text FieldRules.Expr

variable {registry : Registry} {text before after : List Char}

namespace Text

/-! ## Texts behind which nothing is closed -/

section

variable {left right : Char} {level : Nat} {quoted : Bool}

/-- Without its closing delimiter, a delimited text has no content. -/
theorem scanContent_eq_none (unclosed : right ∉ text) :
    scanContent left right level quoted text = none := by
  fun_induction scanContent left right level quoted text <;> simp_all

/-- Text without the closing delimiter is left behind the one that closes. -/
theorem scanContent_append (unclosed : right ∉ after) :
    scanContent left right level quoted (text ++ after) =
      (scanContent left right level quoted text).map fun cut => (cut.1, cut.2 ++ after) := by
  fun_induction scanContent left right level quoted text with
  | case1 => exact scanContent_eq_none unclosed
  | case2 level quoted =>
      -- the backslash at the end of the text escapes what stands behind it
      cases after with
      | nil => rfl
      | cons escaped after =>
          rw [List.mem_cons, not_or] at unclosed
          simp [scanContent, scanContent_eq_none unclosed.2]
  | case3 level quoted escaped rest unit ih =>
      rw [List.cons_append, List.cons_append, scanContent, if_pos rfl]
      simp only [ih, Option.map_map]
      rfl
  | case4 level c rest noBackslash ih =>
      rw [List.cons_append, scanContent.eq_def]
      simp only [if_neg noBackslash, if_true, ih, Option.map_map]
      rfl
  | case5 level quoted c rest noBackslash unquoted closes =>
      rw [List.cons_append, scanContent.eq_def]
      simp only [if_neg noBackslash, if_neg unquoted, if_pos closes, Option.map_some]
  | case6 level quoted c rest noBackslash unquoted inside opens closes quotes level' ih =>
      rw [List.cons_append, scanContent.eq_def]
      simp only [if_neg noBackslash, if_neg unquoted, if_neg inside]
      rw [ih, Option.map_map, Option.map_map]
      rfl

theorem scanPaired_append (unclosed : right ∉ after) (c : Char) (rest : List Char) :
    scanPaired left right (c :: (rest ++ after)) =
      (scanPaired left right (c :: rest)).map fun cut => (cut.1, cut.2 ++ after) := by
  rw [scanPaired, scanPaired]
  split_ifs
  · exact scanContent_append unclosed
  · rfl

end

/-! ## Layout and blank characters -/

theorem skipLayout_eq_nil_iff : skipLayout text = [] ↔ IsGap text :=
  List.dropWhile_eq_nil_iff

theorem skipLayout_append_of_isGap (layout : IsGap before) (text : List Char) :
    skipLayout (before ++ text) = skipLayout text :=
  List.dropWhile_append_of_pos layout

theorem skipLayout_append_of_eq_cons {c : Char} {rest : List Char}
    (shown : skipLayout text = c :: rest) (after : List Char) :
    skipLayout (text ++ after) = c :: (rest ++ after) := by
  have some : (text.dropWhile isLayout).isEmpty = false := by
    rw [skipLayout] at shown
    rw [shown]
    rfl
  rw [skipLayout, List.dropWhile_append, some]
  exact congrArg (· ++ after) shown

theorem length_lt_of_skipLayout_eq_cons {c : Char} {rest : List Char}
    (shown : skipLayout text = c :: rest) : rest.length < text.length := by
  have fewer : (skipLayout text).length ≤ text.length := (List.dropWhile_suffix _).length_le
  rw [shown, List.length_cons] at fewer
  omega

/-- Layout is skipped up to the first blank character that is none. -/
theorem exists_blank_of_not_isGap (blank : ∀ c ∈ text, isBlank c = true)
    (noLayout : ¬ IsGap text) : ∃ c rest, skipLayout text = c :: rest ∧ isBlank c = true := by
  cases shown : skipLayout text with
  | nil => exact absurd (skipLayout_eq_nil_iff.mp shown) noLayout
  | cons c rest =>
      have mem : c ∈ skipLayout text := shown ▸ List.mem_cons_self
      exact ⟨c, rest, rfl, blank c ((List.dropWhile_suffix _).subset mem)⟩

theorem isLayout_of_skipLayout_eq_cons {c : Char} {rest : List Char}
    (shown : skipLayout text = c :: rest) : isLayout c = false := by
  have same : text.dropWhile isLayout = c :: rest := shown
  have first := List.head?_dropWhile_not isLayout text
  rw [same] at first
  exact first

end Text

variable [RegexLibrary]

/-! ## What is read starts visibly -/

namespace Expr

/-- Behind its layout, the text of an expression starts with a character that is not
blank. -/
theorem exists_shown_of_ofText {tree : Node} (read : Node.ofText registry text = .ok tree) :
    ∃ c ∈ (skipLayout text).head?, isBlank c = false := by
  obtain ⟨signs, rfl, portable⟩ := ofText_eq_ok_iff.mp read
  cases portable with
  | @placed before after chain core gap_before gap_after accepted =>
      obtain ⟨c, head, shown⟩ := accepted.trimmed.head
      have visible : c ∈ (spell core ++ after).head? := by
        rw [List.head?_append, Option.mem_def.mp head]
        rfl
      have stops : ∀ d ∈ (spell core ++ after).head?, isLayout d = false := by
        intro d mem
        rw [Option.mem_unique mem visible]
        exact isLayout_eq_false shown
      rw [spell_append, spell_append, spell_plains, spell_plains, List.append_assoc,
        skipLayout_append gap_before stops]
      exact ⟨c, visible, shown⟩

end Expr

namespace Annotation

variable {named : Annotation}

theorem shown_of_ofText {source : String} (read : ofText registry source = .ok named) :
    ∀ c ∈ (skipLayout source.toList).head?, isBlank c = false := by
  cases start : skipLayout source.toList with
  | nil => rintro c ⟨⟩
  | cons c rest =>
      rintro d ⟨⟩
      by_cases brace : c = '{'
      · rw [brace]
        rfl
      · rw [ofText_default start brace] at read
        obtain ⟨expression, expressionRead, -⟩ := map_eq_ok_iff.mp read
        obtain ⟨tree, treeRead, -⟩ := map_eq_ok_iff.mp expressionRead
        rw [String.toList_ofList] at treeRead
        obtain ⟨d, head, shown⟩ := exists_shown_of_ofText treeRead
        obtain ⟨cut, split⟩ : trimEnd (c :: rest) <+: c :: rest := List.rdropWhile_prefix isBlank _
        cases trimmed : trimEnd (c :: rest) with
        | nil =>
            rw [trimmed] at head
            cases head
        | cons e left =>
            rw [trimmed] at head split
            obtain rfl : e = c := (List.cons.inj split).1
            have stays : skipLayout (e :: left) = e :: left :=
              List.dropWhile_cons_of_neg (by simp [isLayout_of_skipLayout_eq_cons start])
            rw [stays] at head
            cases head
            exact shown

/-- Blank characters behind blocks are read only if they are layout. -/
theorem readBlocks_append_blank (blank : ∀ c ∈ after, isBlank c = true) {steps more : Nat}
    {earlier : Annotation} (enough : text.length < steps)
    (enoughMore : (text ++ after).length < more) :
    readBlocks registry more earlier (text ++ after) = .ok named ↔
      IsGap after ∧ readBlocks registry steps earlier text = .ok named := by
  have unclosed : '}' ∉ after := fun mem => absurd (blank _ mem) (by decide)
  induction steps generalizing more earlier text with
  | zero => exact absurd enough (Nat.not_lt_zero _)
  | succ steps ih =>
      obtain ⟨more, rfl⟩ : ∃ fewer, more = fewer + 1 := ⟨more - 1, by omega⟩
      rw [readBlocks, readBlocks]
      cases shown : skipLayout text with
      | nil =>
          rw [skipLayout_append_of_isGap (skipLayout_eq_nil_iff.mp shown)]
          by_cases layout : IsGap after
          · simp [skipLayout_eq_nil_iff.mpr layout, layout]
          · obtain ⟨c, rest, start, blank⟩ := exists_blank_of_not_isGap blank layout
            have noBrace : c ≠ '{' := by
              rintro rfl
              cases blank
            simp [start, noBrace, layout]
      | cons c rest =>
          rw [skipLayout_append_of_eq_cons shown]
          by_cases brace : c = '{'
          · subst brace
            have shorter := length_lt_of_skipLayout_eq_cons shown
            have opens : (('{' :: rest).head? ≠ some '{') = False := by simp
            have opensMore : (('{' :: (rest ++ after)).head? ≠ some '{') = False := by simp
            simp only [opens, opensMore, if_false, scanPaired_append unclosed]
            cases scanned : scanPaired '{' '}' ('{' :: rest) with
            | none => simp
            | some cut =>
                obtain ⟨block, behind⟩ := cut
                simp only [Option.map_some]
                cases readBlock registry block with
                | error fault => simp
                | ok named =>
                    simp only [bind_ok]
                    cases earlier.any (·.name = named.name) with
                    | true => simp
                    | false =>
                        obtain ⟨raw, -, -, split, -⟩ := signs_of_scanPaired .curly scanned
                        have count := congrArg List.length split
                        simp only [List.length_append, List.length_cons] at count enoughMore
                        simp only [Bool.false_eq_true, if_false]
                        exact ih (by omega) (by rw [List.length_append]; omega)
          · simp [brace]

theorem ofText_append_of_isGap (layout : IsGap before) (text : List Char) :
    ofText registry (.ofList (before ++ text)) = ofText registry (.ofList text) := by
  simp only [ofText, String.toList_ofList, skipLayout_append_of_isGap layout]

theorem ofText_of_isGap (layout : IsGap text) : ofText registry (.ofList text) = .ok [] := by
  rw [ofText, String.toList_ofList, skipLayout_eq_nil_iff.mpr layout]

/-- A text that starts with a blank character which is no layout is no annotation. -/
theorem ofText_ne_ok_of_blank {c : Char} {rest : List Char} (start : skipLayout text = c :: rest)
    (blank : isBlank c = true) : ofText registry (.ofList text) ≠ .ok named := by
  intro read
  have visible := shown_of_ofText read c (by rw [String.toList_ofList, start]; rfl)
  rw [blank] at visible
  cases visible

/-- Blank characters behind an annotation are read if they are layout or behind a single
expression. -/
theorem ofText_append_blank (blank : ∀ c ∈ after, isBlank c = true) (text : List Char) :
    ofText registry (.ofList (text ++ after)) = .ok named ↔
      (IsGap after ∨ ∃ c ∈ (skipLayout text).head?, c ≠ '{') ∧
        ofText registry (.ofList text) = .ok named := by
  cases start : skipLayout text with
  | nil =>
      have layout : IsGap text := skipLayout_eq_nil_iff.mp start
      have noExpression : ¬ ∃ c ∈ ([] : List Char).head?, c ≠ '{' := by simp
      rw [ofText_append_of_isGap layout, ofText_of_isGap layout, or_iff_left noExpression]
      by_cases gap : IsGap after
      · rw [ofText_of_isGap gap, and_iff_right gap]
      · obtain ⟨c, rest, shown, isBlank⟩ := exists_blank_of_not_isGap blank gap
        exact iff_of_false (ofText_ne_ok_of_blank shown isBlank) fun read => gap read.1
  | cons c rest =>
      have startMore := skipLayout_append_of_eq_cons start after
      by_cases brace : c = '{'
      · subst brace
        have noExpression : ¬ ∃ c ∈ ('{' :: rest).head?, c ≠ '{' := by simp
        have braced : ∀ c ∈ (skipLayout text).head?, c = '{' := by simp [start]
        have bracedMore : ∀ c ∈ (skipLayout (text ++ after)).head?, c = '{' := by simp [startMore]
        rw [ofText_eq_readBlocks braced, ofText_eq_readBlocks bracedMore, start, startMore,
          ← List.cons_append, or_iff_left noExpression]
        exact readBlocks_append_blank blank (Nat.lt_succ_self _) (Nat.lt_succ_self _)
      · have expression : ∃ d ∈ (c :: rest).head?, d ≠ '{' := ⟨c, rfl, brace⟩
        have trimmed : trimEnd (c :: (rest ++ after)) = trimEnd (c :: rest) := by
          rw [← List.cons_append, trimEnd_append blank]
        have shown : skipLayout (String.ofList text).toList = c :: rest := by
          rw [String.toList_ofList, start]
        have shownMore : skipLayout (String.ofList (text ++ after)).toList = c :: (rest ++ after) := by
          rw [String.toList_ofList, startMore]
        rw [ofText_default shown brace, ofText_default shownMore brace, trimmed,
          and_iff_right (.inr expression)]

end Annotation

/-- An annotation with blank characters around it is read as the annotation, with the same
names, trees and sources, exactly if those in front of it are layout and those behind it
are layout or stand behind a single expression.  All other blank characters in front of an
annotation, and those behind blocks or behind no expression at all, make it unreadable,
whatever it is without them. -/
theorem annotation_read_between_blanks (blank_before : ∀ c ∈ before, isBlank c = true)
    (blank_after : ∀ c ∈ after, isBlank c = true) (text : List Char) (named : Annotation) :
    Annotation.ofText registry (.ofList (before ++ text ++ after)) = .ok named ↔
      IsGap before ∧ (IsGap after ∨ ∃ c ∈ (skipLayout text).head?, c ≠ '{') ∧
        Annotation.ofText registry (.ofList text) = .ok named := by
  rw [List.append_assoc]
  by_cases layout : IsGap before
  · have skipped : Annotation.ofText registry (.ofList (before ++ (text ++ after))) =
        Annotation.ofText registry (.ofList (text ++ after)) :=
      Annotation.ofText_append_of_isGap layout _
    rw [skipped, and_iff_right layout]
    exact Annotation.ofText_append_blank blank_after text
  · obtain ⟨c, rest, shown, isBlank⟩ := exists_blank_of_not_isGap blank_before layout
    have start := skipLayout_append_of_eq_cons shown (text ++ after)
    refine iff_of_false ?_ fun read => layout read.1
    exact Annotation.ofText_ne_ok_of_blank start isBlank

end FieldRules

namespace FieldRules

open FieldRules.Text FieldRules.Expr

attribute [local instance] RegexLibrary.empty

/-- A tab in front of an expression and a no-break space behind it. -/
theorem tab_and_no_break_space_around_nil :
    (∀ c ∈ ['\t'], isBlank c = true) ∧ (∀ c ∈ ['\u00a0'], isBlank c = true) ∧
      Annotation.ofText .empty (.ofList (['\t'] ++ ['n', 'i', 'l'] ++ ['\u00a0'])) =
        .ok [⟨none, ⟨"nil", .nil⟩⟩] := by
  have tab : ∀ c ∈ ['\t'], isBlank c = true := List.forall_mem_singleton.mpr (by decide)
  have space : ∀ c ∈ ['\u00a0'], isBlank c = true := List.forall_mem_singleton.mpr (by decide)
  have layout : IsGap ['\t'] := List.forall_mem_singleton.mpr rfl
  have expression : ∃ c ∈ (skipLayout ['n', 'i', 'l']).head?, c ≠ '{' := ⟨'n', rfl, by decide⟩
  exact ⟨tab, space, (annotation_read_between_blanks tab space ['n', 'i', 'l'] _).mpr
    ⟨layout, .inr expression, rfl⟩⟩

/-- A no-break space is blank, but neither alone nor in front of an expression it is
skipped. -/
theorem no_break_space_not_skipped :
    isBlank '\u00a0' = true ∧
      Annotation.ofText .empty "" = .ok [] ∧
      Annotation.ofText .empty "\u00a0" = .error .empty ∧
      Annotation.ofText .empty "nil" = .ok [⟨none, ⟨"nil", .nil⟩⟩] ∧
      Annotation.ofText .empty "\u00a0nil" = .error (.expectedOperand "\u00a0nil") :=
  ⟨by decide, rfl, rfl, rfl, rfl⟩

end FieldRules
