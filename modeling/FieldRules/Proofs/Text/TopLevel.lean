import FieldRules.Proofs.Text.Closing

/-!
# Commas at the top level

Like the delimiters of a text, the commas that part an argument list can be told place
by place, from what stands before a place alone.  A comma is at the top level when it
is not escaped, outside quoted runs and outside brackets, where only brackets count
that are themselves neither escaped nor quoted, and all kinds of them together.

Slicing, which keeps a depth and reads a backslash together with the character behind
it, cuts at exactly these commas and loses nothing.  Texts in which everything is
closed, without such a comma of their own, are cut out of a list again as they were
put in.
-/

namespace FieldRules.Text

variable {text rest before : List Char} {parts : List (List Char)} {c : Char} {depth : Nat}
  {quoted : Bool}

/-! ## Depth -/

/-- A bracket or a comma behind the text counts: it is neither escaped nor in a
quoted run. -/
def Counts (text : List Char) : Prop :=
  ¬ Escapes text ∧ Even (quoteCount text)

instance : DecidablePred Counts := fun _ => inferInstanceAs (Decidable (_ ∧ _))

/-- The depth behind a character that counts.  A closing bracket that nothing has opened
leaves it at zero. -/
def depthBehind (depth : Nat) (c : Char) : Nat :=
  if c ∈ brackets.map Prod.fst then depth + 1
  else if c ∈ brackets.map Prod.snd then depth - 1
  else depth

/-- The number of open brackets of all kinds at the end of a text. -/
def bracketDepth (text : List Char) : Nat :=
  ((places text).filter fun place => Counts place.before).foldl
    (fun depth place => depthBehind depth place.char) 0

/-- A comma behind the text is at the top level. -/
structure TopLevel (text : List Char) : Prop where
  counts : Counts text
  outermost : bracketDepth text = 0

instance : DecidablePred TopLevel := fun text =>
  decidable_of_iff (Counts text ∧ bracketDepth text = 0)
    ⟨fun ⟨counts, outermost⟩ => ⟨counts, outermost⟩,
      fun topLevel => ⟨topLevel.counts, topLevel.outermost⟩⟩

theorem bracketDepth_concat (text : List Char) (c : Char) :
    bracketDepth (text ++ [c]) =
      if Counts text then depthBehind (bracketDepth text) c else bracketDepth text := by
  rw [bracketDepth, places_append, List.filter_append, List.foldl_append, List.filter_map,
    List.foldl_map]
  have same : (places text).filter
      ((fun place => decide (Counts place.before)) ∘ (Place.extend · [c])) =
        (places text).filter fun place => Counts place.before := rfl
  rw [same]
  by_cases counts : Counts text <;> simp [placesFrom, counts, bracketDepth, Place.extend]

/-- A text behind which slicing has come: no backslash is left over, and depth and
quotation are those of the slicing. -/
structure Reached (text : List Char) (depth : Nat) (quoted : Bool) : Prop where
  unescaped : ¬ Escapes text
  quotes : Even (quoteCount text) ↔ quoted = false
  depth_eq : bracketDepth text = depth

theorem reached_nil : Reached [] 0 false where
  unescaped := not_escapes_nil
  quotes := by simp [quoteCount]
  depth_eq := rfl

/-- Where a comma is at the top level, slicing is where it starts. -/
theorem TopLevel.reached (topLevel : TopLevel text) : Reached text 0 false where
  unescaped := topLevel.counts.1
  quotes := iff_of_true topLevel.counts.2 rfl
  depth_eq := topLevel.outermost

namespace Reached

variable (reached : Reached text depth quoted)

include reached

theorem counts_iff : Counts text ↔ quoted = false := by
  rw [Counts, reached.quotes]
  exact and_iff_right reached.unescaped

theorem topLevel_iff : TopLevel text ↔ quoted = false ∧ depth = 0 := by
  rw [← reached.counts_iff, ← reached.depth_eq]
  constructor
  · rintro ⟨counts, outermost⟩
    exact ⟨counts, outermost⟩
  · rintro ⟨counts, outermost⟩
    exact ⟨counts, outermost⟩

/-- Behind a unit nothing has changed. -/
theorem unit (c : Char) : Reached (text ++ ['\\', c]) depth quoted where
  unescaped := not_escapes_unit reached.unescaped c
  quotes := by
    rw [quoteCount_unit reached.unescaped]
    exact reached.quotes
  depth_eq := by
    have escaped : Escapes (text ++ ['\\']) := escapes_concat_backslash.mpr reached.unescaped
    have split : text ++ ['\\', c] = text ++ ['\\'] ++ [c] := by simp
    have noBracket : depthBehind (bracketDepth text) '\\' = bracketDepth text := rfl
    rw [split, bracketDepth_concat, if_neg fun counts => counts.1 escaped, bracketDepth_concat,
      noBracket, ite_self, reached.depth_eq]

/-- A quote begins or ends a quoted run. -/
theorem quote : Reached (text ++ ['\'']) depth (!quoted) where
  unescaped := not_escapes_concat (by decide)
  quotes := by
    rw [quoteCount_concat_quote reached.unescaped, Nat.even_add_one, reached.quotes]
    simp
  depth_eq := by
    have noBracket : depthBehind (bracketDepth text) '\'' = bracketDepth text := rfl
    rw [bracketDepth_concat, noBracket, ite_self, reached.depth_eq]

/-- Behind another character the depth is as it says, outside quoted runs. -/
theorem char (plain : c ≠ '\\') (noQuote : c ≠ '\'') :
    Reached (text ++ [c]) (if quoted then depth else depthBehind depth c) quoted where
  unescaped := not_escapes_concat plain
  quotes := by
    rw [quoteCount_concat noQuote]
    exact reached.quotes
  depth_eq := by
    rw [bracketDepth_concat, reached.depth_eq]
    cases quoted <;> simp [reached.counts_iff]

end Reached

/-! ## Slices by places -/

/-- The slices of a text with another text in front of it. -/
def slicesFrom (before : List Char) : List Char → List (List Char)
  | [] => [[]]
  | c :: after =>
      if c = ',' ∧ TopLevel before then [] :: slicesFrom (before ++ [c]) after
      else consSlice [c] (slicesFrom (before ++ [c]) after)

theorem slicesFrom_comma (topLevel : TopLevel before) :
    slicesFrom before (',' :: rest) = [] :: slicesFrom (before ++ [',']) rest :=
  if_pos ⟨rfl, topLevel⟩

theorem slicesFrom_other (other : c = ',' → ¬ TopLevel before) :
    slicesFrom before (c :: rest) = consSlice [c] (slicesFrom (before ++ [c]) rest) :=
  if_neg fun cut => other cut.1 cut.2

theorem slicesFrom_ne_nil (before text : List Char) : slicesFrom before text ≠ [] := by
  cases text with
  | nil => exact List.cons_ne_nil _ _
  | cons c text =>
      rw [slicesFrom]
      split_ifs
      · exact List.cons_ne_nil _ _
      · cases slicesFrom (before ++ [c]) text <;> exact List.cons_ne_nil _ _

/-- Slicing takes in every character but a comma outside quoted runs and brackets. -/
theorem slices_char (plain : c ≠ '\\') (noQuote : c ≠ '\'')
    (inside : c = ',' → ¬ (quoted = false ∧ depth = 0)) :
    slices depth quoted (c :: rest) =
      consSlice [c] (slices (if quoted then depth else depthBehind depth c) quoted rest) := by
  cases quoted with
  | true => exact slices_quoted_char plain noQuote
  | false =>
      have opens : c ∈ brackets.map Prod.fst ↔ (c = '(' ∨ c = '[') ∨ c = '{' := by
        simp [brackets, or_assoc]
      have closes : c ∈ brackets.map Prod.snd ↔ (c = ')' ∨ c = ']') ∨ c = '}' := by
        simp [brackets, or_assoc]
      have noCut : ¬ (c = ',' ∧ depth = 0) := fun cut => inside cut.1 ⟨rfl, cut.2⟩
      -- slicing looks at the text behind a character before it compares the character
      cases rest <;> grind [slices, depthBehind]

/-- Wherever slicing has come to, it cuts at the commas at the top level. -/
theorem Reached.slices_eq (reached : Reached text depth quoted) :
    slices depth quoted rest = slicesFrom text rest := by
  induction rest using unitInduction generalizing text depth quoted with
  | nil => cases quoted <;> rfl
  | lone =>
      rw [slicesFrom_other (by simp)]
      rfl
  | unit c rest ih =>
      -- neither place of a unit is at the top level, and slicing reads it at once
      have escaped : Escapes (text ++ ['\\']) := escapes_concat_backslash.mpr reached.unescaped
      rw [slices_unit, ih (reached.unit c), slicesFrom_other (by simp),
        slicesFrom_other fun _ topLevel => topLevel.counts.1 escaped, consSlice_consSlice,
        List.append_assoc]
      rfl
  | char c rest plain ih =>
      by_cases quote : c = '\''
      · subst quote
        rw [slices_quote, ih reached.quote, slicesFrom_other (by simp)]
      · by_cases cut : c = ',' ∧ TopLevel text
        · obtain ⟨rfl, topLevel⟩ := cut
          obtain ⟨rfl, rfl⟩ := reached.topLevel_iff.mp topLevel
          have next : Reached (text ++ [',']) 0 false := reached.char plain quote
          rw [slices_comma, ih next, slicesFrom_comma topLevel]
        · have other := not_and.mp cut
          have inside := other
          rw [reached.topLevel_iff] at inside
          rw [slices_char plain quote inside, ih (reached.char plain quote), slicesFrom_other other]

/-! ## Commas between slices -/

/-- The comma behind a text stands between two of some slices: the text is what the
slices in front of it are joined to. -/
def Separates (parts : List (List Char)) (before : List Char) : Prop :=
  ∃ first second, first ≠ [] ∧ second ≠ [] ∧ parts = first ++ second ∧
    before = [','].intercalate first

theorem separates_nil_cons (some : parts ≠ []) : Separates ([] :: parts) [] :=
  ⟨[[]], parts, List.cons_ne_nil _ _, some, rfl, rfl⟩

/-- Behind an empty slice the commas are those between the others. -/
theorem separates_nil_cons_iff :
    Separates ([] :: parts) (',' :: before) ↔ Separates parts before := by
  constructor
  · rintro ⟨first, second, firstSome, secondSome, split, joined⟩
    obtain ⟨slice, first, rfl⟩ := List.exists_cons_of_ne_nil firstSome
    obtain ⟨rfl, rfl⟩ := List.cons.inj split
    cases first with
    | nil => cases joined
    | cons slice first =>
        rw [List.intercalate_cons_cons] at joined
        exact ⟨slice :: first, second, List.cons_ne_nil _ _, secondSome, rfl,
          (List.cons.inj joined).2⟩
  · rintro ⟨first, second, firstSome, secondSome, rfl, rfl⟩
    obtain ⟨slice, first, rfl⟩ := List.exists_cons_of_ne_nil firstSome
    exact ⟨[] :: slice :: first, second, List.cons_ne_nil _ _, secondSome, rfl,
      by rw [List.intercalate_cons_cons]; rfl⟩

/-- In front of the first slice stands no comma that separates. -/
theorem not_separates_consSlice (some : parts ≠ []) : ¬ Separates (consSlice [c] parts) [] := by
  obtain ⟨slice, parts, rfl⟩ := List.exists_cons_of_ne_nil some
  rintro ⟨first, second, firstSome, -, split, joined⟩
  obtain ⟨head, first, rfl⟩ := List.exists_cons_of_ne_nil firstSome
  obtain ⟨rfl, -⟩ := List.cons.inj split
  have moved := intercalate_consSlice [c] (slice :: first)
  cases joined.trans moved

/-- A character in front of the first slice moves the commas by one place. -/
theorem separates_consSlice_iff (some : parts ≠ []) :
    Separates (consSlice [c] parts) (c :: before) ↔ Separates parts before := by
  obtain ⟨slice, parts, rfl⟩ := List.exists_cons_of_ne_nil some
  constructor
  · rintro ⟨first, second, firstSome, secondSome, split, joined⟩
    obtain ⟨head, first, rfl⟩ := List.exists_cons_of_ne_nil firstSome
    obtain ⟨rfl, rfl⟩ := List.cons.inj split
    refine ⟨slice :: first, second, List.cons_ne_nil _ _, secondSome, rfl, ?_⟩
    have moved := intercalate_consSlice [c] (slice :: first)
    exact (List.cons.inj (joined.trans moved)).2
  · rintro ⟨first, second, firstSome, secondSome, split, rfl⟩
    obtain ⟨head, first, rfl⟩ := List.exists_cons_of_ne_nil firstSome
    obtain ⟨rfl, rfl⟩ := List.cons.inj split
    exact ⟨consSlice [c] (slice :: first), second, List.cons_ne_nil _ _, secondSome, rfl,
      (intercalate_consSlice [c] (slice :: first)).symm⟩

/-- The commas between the slices are those at the top level. -/
theorem separates_slicesFrom_iff {first after : List Char} (split : text = first ++ ',' :: after) :
    Separates (slicesFrom before text) first ↔ TopLevel (before ++ first) := by
  induction text generalizing before first with
  | nil => exact absurd split (by simp)
  | cons c text ih =>
      have some := slicesFrom_ne_nil (before ++ [c]) text
      by_cases cut : c = ',' ∧ TopLevel before
      · obtain ⟨rfl, topLevel⟩ := cut
        rw [slicesFrom_comma topLevel]
        cases first with
        | nil =>
            rw [List.append_nil]
            exact iff_of_true (separates_nil_cons some) topLevel
        | cons d first =>
            obtain ⟨rfl, tail⟩ := List.cons.inj split
            rw [separates_nil_cons_iff, ih tail, List.append_assoc]
            rfl
      · have other := not_and.mp cut
        rw [slicesFrom_other other]
        cases first with
        | nil =>
            obtain ⟨rfl, -⟩ := List.cons.inj split
            rw [List.append_nil]
            exact iff_of_false (not_separates_consSlice some) (other rfl)
        | cons d first =>
            obtain ⟨rfl, tail⟩ := List.cons.inj split
            rw [separates_consSlice_iff some, ih tail, List.append_assoc]
            rfl

/-- No other slices are joined to the text and separated by these commas. -/
theorem eq_slicesFrom (some : parts ≠ []) (joined : [','].intercalate parts = text)
    (separates_iff : ∀ first after, text = first ++ ',' :: after →
      (Separates parts first ↔ TopLevel (before ++ first))) :
    parts = slicesFrom before text := by
  -- whether the first slice is empty tells how the text starts and what comes next
  induction text generalizing before parts with
  | nil =>
      match parts with
      | [slice] =>
          rw [List.intercalate_singleton] at joined
          rw [joined]
          rfl
      | slice :: next :: parts => simp [List.intercalate_cons_cons] at joined
  | cons c text ih =>
      match parts with
      | [] :: next :: parts =>
          rw [List.intercalate_cons_cons] at joined
          obtain ⟨rfl, tail⟩ := List.cons.inj joined
          have topLevel : TopLevel before := by
            rw [← List.append_nil before, ← separates_iff [] text rfl]
            exact separates_nil_cons (List.cons_ne_nil _ _)
          have others : next :: parts = slicesFrom (before ++ [',']) text := by
            refine ih (List.cons_ne_nil _ _) tail fun first after split => ?_
            rw [← separates_nil_cons_iff, separates_iff (',' :: first) after (by rw [split]; rfl),
              List.append_assoc]
            rfl
          rw [slicesFrom_comma topLevel, others]
      | (d :: slice) :: parts =>
          have moved : [','].intercalate ((d :: slice) :: parts) =
              d :: [','].intercalate (slice :: parts) :=
            intercalate_consSlice [d] (slice :: parts)
          obtain ⟨rfl, tail⟩ := List.cons.inj (moved.symm.trans joined)
          have other : d = ',' → ¬ TopLevel before := by
            rintro rfl
            rw [← List.append_nil before, ← separates_iff [] text rfl]
            exact not_separates_consSlice (List.cons_ne_nil slice parts)
          have others : slice :: parts = slicesFrom (before ++ [d]) text := by
            refine ih (List.cons_ne_nil _ _) tail fun first after split => ?_
            have here := separates_iff (d :: first) after (by rw [split]; rfl)
            rw [List.append_assoc, List.singleton_append, ← here]
            exact (separates_consSlice_iff (List.cons_ne_nil slice parts)).symm
          rw [slicesFrom_other other, ← others]
          rfl

/-! ## Lists put together -/

/-- Slices of a text that are joined to it and separated by its commas at the top
level. -/
structure Sliced (text : List Char) (parts : List (List Char)) : Prop where
  joined : [','].intercalate parts = text
  separates_iff : ∀ place ∈ places text, place.char = ',' →
    (Separates parts place.before ↔ TopLevel place.before)

/-- A text that can stand in a list: a comma behind it is at the top level, and none in
it is. -/
structure Whole (text : List Char) : Prop where
  topLevel : TopLevel text
  uncut : ∀ place ∈ places text, place.char = ',' → ¬ TopLevel place.before

instance : DecidablePred Whole := fun text =>
  decidable_of_iff
    (TopLevel text ∧ ∀ place ∈ places text, place.char = ',' → ¬ TopLevel place.before)
    ⟨fun ⟨topLevel, uncut⟩ => ⟨topLevel, uncut⟩, fun whole => ⟨whole.topLevel, whole.uncut⟩⟩

theorem slices_eq_slicesFrom (text : List Char) : slices 0 false text = slicesFrom [] text :=
  reached_nil.slices_eq

theorem sliced_slices (text : List Char) : Sliced text (slices 0 false text) where
  joined := intercalate_slices 0 false text
  separates_iff place mem comma := by
    have split := mem_places_iff.mp mem
    rw [comma] at split
    rw [slices_eq_slicesFrom, separates_slicesFrom_iff split, List.nil_append]

/-- There are no other slices of a text. -/
theorem Sliced.eq_slices (some : parts ≠ []) (sliced : Sliced text parts) :
    parts = slices 0 false text := by
  rw [slices_eq_slicesFrom]
  refine eq_slicesFrom some sliced.joined fun first after split => ?_
  exact sliced.separates_iff ⟨first, ',', after⟩ (mem_places_iff.mpr split) rfl

/-- Slicing passes over a text up to the first comma at the top level. -/
theorem slicesFrom_append (uncut : ∀ place ∈ placesFrom before text, place.char = ',' →
    ¬ TopLevel place.before) :
    slicesFrom before (text ++ rest) = consSlice text (slicesFrom (before ++ text) rest) := by
  induction text generalizing before with
  | nil =>
      rw [List.append_nil, consSlice_nil (slicesFrom_ne_nil _ _)]
      rfl
  | cons c text ih =>
      obtain ⟨first, others⟩ := List.forall_mem_cons.mp uncut
      rw [List.cons_append, slicesFrom_other first, ih others, consSlice_consSlice,
        List.append_assoc]
      rfl

/-- Slicing passes over a whole text and goes on from where it started. -/
theorem Whole.unsliced (whole : Whole text) : Unsliced text := by
  intro rest
  rw [slices_eq_slicesFrom, slicesFrom_append whole.uncut, whole.topLevel.reached.slices_eq,
    List.nil_append]

/-- Texts that are joined are not blank, a single blank one apart. -/
theorem isBlankText_intercalate {texts : List (List Char)} (some : texts ≠ [])
    (shown : ∀ text, texts = [text] → isBlankText text = false) :
    isBlankText ([','].intercalate texts) = false := by
  match texts with
  | [text] =>
      rw [List.intercalate_singleton]
      exact shown text rfl
  | text :: next :: texts =>
      have comma : ',' ∈ [','].intercalate (text :: next :: texts) := by
        rw [List.intercalate_cons_cons]
        simp
      exact isBlankText_eq_false comma rfl

/-- An argument list that is not blank has just one cut into slices that are joined to
the list by commas and separated at its commas at the top level: those that are not
escaped, outside quoted runs and at bracket depth zero.  Its pieces are these slices,
trimmed, in order.

Cutting undoes joining.  Whole texts, of which there is one at least and not just a
blank one, are the pieces of the list to which they are joined, trimmed.  A text is
whole when it ends outside quoted runs, at depth zero, in an even run of backslashes,
and has no comma at the top level; closing brackets that nothing has opened do no
harm. -/
theorem pieces_undo_joining :
    (∀ text, isBlankText text = false →
      ∃ parts, Sliced text parts ∧ (∀ others, Sliced text others → others = parts) ∧
        pieces text = parts.map trim) ∧
    ∀ texts, texts ≠ [] → (∀ text, texts = [text] → isBlankText text = false) →
      (∀ text ∈ texts, Whole text) → pieces ([','].intercalate texts) = texts.map trim := by
  refine ⟨fun text shown => ⟨slices 0 false text, sliced_slices text, fun others sliced => ?_, ?_⟩,
    fun texts some shown whole => ?_⟩
  · refine sliced.eq_slices ?_
    rintro rfl
    obtain rfl := sliced.joined
    cases shown
  · rw [pieces, shown]
    rfl
  · exact pieces_intercalate some (fun text mem => (whole text mem).unsliced)
      (isBlankText_intercalate some shown)

/-- A quoted comma, one in brackets and an escaped one stay in their pieces, and an empty
piece stays a piece. -/
theorem quoted_nested_and_escaped_commas_kept :
    let texts : List (List Char) :=
      [['\'', ',', '\''], [' ', '(', '[', ',', ']', ')'], [], ['\\', ',']]
    let text := [','].intercalate texts
    isBlankText text = false ∧ (∀ text ∈ texts, Whole text) ∧
      (∃ parts, Sliced text parts ∧ pieces text = parts.map trim) ∧
      pieces text = [['\'', ',', '\''], ['(', '[', ',', ']', ')'], [], ['\\', ',']] := by
  intro texts text
  have shown : isBlankText text = false := rfl
  have whole : ∀ text ∈ texts, Whole text := by
    simp only [texts]
    decide
  obtain ⟨slicing, joining⟩ := pieces_undo_joining
  obtain ⟨parts, sliced, -, found⟩ := slicing text shown
  have joined := joining texts (List.cons_ne_nil _ _) (by simp [texts]) whole
  exact ⟨shown, whole, ⟨parts, sliced, found⟩, joined⟩

end FieldRules.Text
