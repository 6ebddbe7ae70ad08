import FieldRules.Proofs.Text.Signs

/-!
# Sealed texts

A scan for the end of a bracket goes through a text sign by sign, and so does the
slicing of an argument list.  A text is sealed when neither of them can end or
cut inside it, wherever it stands and whichever backslashes the scans around it
take away.

Sealed texts are closed under concatenation.  Brackets seal what is nested
properly between them, commas included.
-/

namespace FieldRules.Text

variable {signs more raw : List Sign} {sign : Sign} {bracket : Bracket}
  {level next final depth : Nat} {text content rest after : List Char}

/-! ## Scans -/

/-- A backslash in front of a bracket of the scanned kind is dropped. -/
theorem scanContent_escaped (c : Char) :
    scanContent bracket.left bracket.right level false ('\\' :: c :: rest) =
      prepend ((Sign.escaped c).unescape [bracket]).text
        (scanContent bracket.left bracket.right level false rest) := by
  rw [Sign.unescape, List.any_cons, List.any_nil, Bool.or_false]
  by_cases isBracket : bracket.has c = true
  · have noBackslash := (Bracket.plain_of_has isBracket).1
    have delimiter : c = bracket.left ∨ c = bracket.right := by
      simpa [Bracket.has] using isBracket
    simp [scanContent, prepend, Sign.text, isBracket, noBackslash, delimiter]
  · have delimiter : ¬ (c = bracket.left ∨ c = bracket.right) := by
      simpa [Bracket.has] using isBracket
    simp [scanContent, prepend, Sign.text, isBracket, delimiter]

/-- A scan takes in a sign at the level that the sign allows. -/
theorem scanContent_sign (wellFormed : sign.WellFormed)
    (stepped : sign.step bracket level = some next) :
    scanContent bracket.left bracket.right level false (sign.text ++ rest) =
      prepend (sign.unescape [bracket]).text
        (scanContent bracket.left bracket.right next false rest) := by
  have mem := bracket.mem_brackets
  cases sign with
  | plain c =>
      rw [Sign.step] at stepped
      split_ifs at stepped with opens closes outermost
      · cases stepped
        subst opens
        exact scanContent_left mem
      · cases stepped
        subst closes
        obtain ⟨lower, rfl⟩ := Nat.exists_eq_succ_of_ne_zero outermost
        exact scanContent_right_inside mem
      · cases stepped
        exact scanContent_other wellFormed.1 wellFormed.2 opens closes
  | escaped c =>
      cases stepped
      exact scanContent_escaped c
  | quoted text =>
      cases stepped
      have contained : SelfContained 0 (singleQuoted text) := .singleQuoted wellFormed
      exact contained.scan _ mem level rest

/-- A scan takes in signs and drops the backslashes of its own brackets. -/
theorem scanContent_spell (wellFormed : ∀ sign ∈ signs, sign.WellFormed)
    (levels : levelAfter bracket level signs = some final) :
    scanContent bracket.left bracket.right level false (spell signs ++ rest) =
      prepend (spell (unescape [bracket] signs))
        (scanContent bracket.left bracket.right final false rest) := by
  induction signs generalizing level with
  | nil =>
      cases levels
      exact (prepend_nil _).symm
  | cons sign signs ih =>
      obtain ⟨first, others⟩ := List.forall_mem_cons.mp wellFormed
      obtain ⟨next, stepped, levels⟩ := Option.bind_eq_some_iff.mp levels
      rw [spell_cons, List.append_assoc, scanContent_sign first stepped, ih others levels,
        prepend_prepend]
      rfl

/-- Properly nested signs in brackets are cut out. -/
theorem scanPaired_spell (wellFormed : ∀ sign ∈ raw, sign.WellFormed)
    (balanced : Balanced bracket raw) (after : List Char) :
    scanPaired bracket.left bracket.right (bracket.left :: spell raw ++ bracket.right :: after) =
      some (spell (unescape [bracket] raw), after) := by
  have closing := (plain_bracket _ bracket.mem_brackets).2.2.1
  rw [List.cons_append, scanPaired, if_pos rfl, scanContent_spell wellFormed balanced,
    scanContent_right closing, prepend_some, List.append_nil]

/-- A scan is at its end, or it takes in a sign. -/
theorem sign_of_scanContent
    (scanned : scanContent bracket.left bracket.right level false text = some (content, after)) :
    (level = 0 ∧ text = bracket.right :: after ∧ content = []) ∨
      ∃ sign : Sign, sign.WellFormed ∧ ∃ next, sign.step bracket level = some next ∧
        ∃ rest, text = sign.text ++ rest := by
  match text with
  | [] => cases scanned
  | c :: rest =>
      by_cases backslash : c = '\\'
      · subst backslash
        match rest with
        | [] => cases scanned
        | c :: rest => exact .inr ⟨.escaped c, trivial, level, rfl, rest, rfl⟩
      · by_cases quote : c = '\''
        · subst quote
          rw [scanContent_quote bracket.mem_brackets, prepend_eq_some_iff] at scanned
          obtain ⟨inner, innerScanned, -⟩ := scanned
          obtain ⟨quoted, rest, quotable, rfl, -⟩ := quoted_of_scanContent_inside innerScanned
          exact .inr ⟨.quoted quoted, quotable, level, rfl, rest, by simp [Sign.text, singleQuoted]⟩
        · cases stepped : (Sign.plain c).step bracket level with
          | some next => exact .inr ⟨.plain c, ⟨backslash, quote⟩, next, stepped, rest, rfl⟩
          | none =>
              rw [Sign.step] at stepped
              split_ifs at stepped with opens closes outermost
              subst closes outermost
              rw [scanContent_right backslash] at scanned
              cases scanned
              exact .inl ⟨rfl, rfl, rfl⟩

/-- What is scanned up to the end of a bracket are properly nested signs. -/
theorem signs_of_scanContent
    (scanned : scanContent bracket.left bracket.right level false text = some (content, after)) :
    ∃ raw, (∀ sign ∈ raw, sign.WellFormed) ∧ levelAfter bracket level raw = some 0 ∧
      text = spell raw ++ bracket.right :: after ∧ content = spell (unescape [bracket] raw) := by
  induction size : text.length using Nat.strongRecOn generalizing text level content with
  | _ bound ih =>
  rcases sign_of_scanContent scanned with
    ⟨rfl, rfl, rfl⟩ | ⟨sign, wellFormed, next, stepped, rest, rfl⟩
  · exact ⟨[], List.forall_mem_nil _, rfl, rfl, rfl⟩
  · rw [scanContent_sign wellFormed stepped, prepend_eq_some_iff] at scanned
    obtain ⟨inner, innerScanned, rfl⟩ := scanned
    have shorter : rest.length < bound := by
      have := List.length_pos_iff.mpr sign.text_ne_nil
      rw [List.length_append] at size
      omega
    obtain ⟨raw, others, levels, rfl, rfl⟩ := ih _ shorter innerScanned rfl
    refine ⟨sign :: raw, List.forall_mem_cons.mpr ⟨wellFormed, others⟩, ?_, ?_, rfl⟩
    · rw [levelAfter_cons, stepped, Option.bind_some, levels]
    · rw [spell_cons, List.append_assoc]

/-- A text in brackets that is cut out is spelled by properly nested signs. -/
theorem signs_of_scanPaired (bracket : Bracket)
    (scanned : scanPaired bracket.left bracket.right text = some (content, after)) :
    ∃ raw, (∀ sign ∈ raw, sign.WellFormed) ∧ Balanced bracket raw ∧
      text = bracket.left :: spell raw ++ bracket.right :: after ∧
      content = spell (unescape [bracket] raw) := by
  cases text with
  | nil => cases scanned
  | cons c text =>
      rw [scanPaired] at scanned
      split_ifs at scanned with opens
      subst opens
      obtain ⟨raw, wellFormed, balanced, rfl, rfl⟩ := signs_of_scanContent scanned
      exact ⟨raw, wellFormed, balanced, rfl, rfl⟩

/-- Content without marks is cut out as it stands. -/
theorem eq_of_scanPaired (bracket : Bracket) (noMarks : ∀ c ∈ content, c ∉ marks)
    (scanned : scanPaired bracket.left bracket.right text = some (content, after)) :
    text = bracket.left :: content ++ bracket.right :: after := by
  obtain ⟨raw, wellFormed, -, rfl, same⟩ := signs_of_scanPaired bracket scanned
  have spelled : unescape [bracket] raw = plains content :=
    spell_injective (wellFormed_unescape wellFormed _) (wellFormed_plains noMarks)
      (same.symm.trans (spell_plains content).symm)
  rw [eq_plains_of_unescape noMarks spelled, spell_plains]

/-! ## Slices -/

/-- The number of open brackets of all kinds. -/
def openBrackets (levels : Bracket → Nat) : Nat :=
  levels .round + levels .square + levels .curly

variable {levels nexts finals : Bracket → Nat}

theorem openBrackets_left
    (stepped : ∀ other, (Sign.plain bracket.left).step other (levels other) = some (nexts other)) :
    openBrackets nexts = openBrackets levels + 1 := by
  have round := stepped .round
  have square := stepped .square
  have curly := stepped .curly
  cases bracket <;> simp [Sign.step, Bracket.left, Bracket.right] at round square curly <;>
    simp only [openBrackets] <;> omega

theorem openBrackets_right
    (stepped : ∀ other, (Sign.plain bracket.right).step other (levels other) = some (nexts other)) :
    openBrackets levels = openBrackets nexts + 1 := by
  have round := stepped .round
  have square := stepped .square
  have curly := stepped .curly
  cases bracket <;> simp [Sign.step, Bracket.left, Bracket.right] at round square curly <;>
    simp only [openBrackets] <;> omega

/-- Inside a bracket, slicing passes over a sign. -/
theorem slices_sign (wellFormed : sign.WellFormed)
    (stepped : ∀ bracket, sign.step bracket (levels bracket) = some (nexts bracket)) :
    slices (depth + 1 + openBrackets levels) false (sign.text ++ rest) =
      consSlice sign.text (slices (depth + 1 + openBrackets nexts) false rest) := by
  have unchanged (noBracket : ∀ bracket : Bracket, ∀ c ∈ sign.char?, bracket.has c = false) :
      nexts = levels := by
    funext bracket
    exact Option.some_inj.mp ((stepped bracket).symm.trans (Sign.step_eq_self (noBracket bracket)))
  cases sign with
  | plain c =>
      rw [Sign.text, List.singleton_append]
      by_cases opens : ∃ bracket : Bracket, c = bracket.left
      · obtain ⟨bracket, rfl⟩ := opens
        rw [openBrackets_left stepped, slices_left bracket.mem_brackets, Nat.add_assoc]
      by_cases closes : ∃ bracket : Bracket, c = bracket.right
      · obtain ⟨bracket, rfl⟩ := closes
        rw [openBrackets_right stepped, ← Nat.add_assoc, slices_right bracket.mem_brackets]
      · have noBracket (bracket : Bracket) : bracket.has c = false := by
          rw [Bracket.has, Bool.or_eq_false_iff, decide_eq_false_iff_not, decide_eq_false_iff_not]
          exact ⟨fun left => opens ⟨bracket, left⟩, fun right => closes ⟨bracket, right⟩⟩
        rw [unchanged (by simpa [Sign.char?] using noBracket)]
        by_cases comma : c = ','
        · subst comma
          rw [Nat.add_right_comm]
          exact slices_comma_inside
        · refine slices_plain fun mark => ?_
          rcases Bracket.mem_marks_iff.mp mark with backslash | quote | isComma | ⟨bracket, isBracket⟩
          · exact wellFormed.1 backslash
          · exact wellFormed.2 quote
          · exact comma isComma
          · exact absurd isBracket (by simp [noBracket bracket])
  | escaped c =>
      obtain rfl : levels = nexts := funext fun bracket => Option.some_inj.mp (stepped bracket)
      exact slices_unit
  | quoted text =>
      rw [unchanged (by simp [Sign.char?])]
      have contained : SelfContained 0 (singleQuoted text) := .singleQuoted wellFormed
      exact Nat.zero_add (depth + 1 + openBrackets levels) ▸ contained.slices _ rest

theorem slices_spell (wellFormed : ∀ sign ∈ signs, sign.WellFormed)
    (after : ∀ bracket, levelAfter bracket (levels bracket) signs = some (finals bracket)) :
    slices (depth + 1 + openBrackets levels) false (spell signs ++ rest) =
      consSlice (spell signs) (slices (depth + 1 + openBrackets finals) false rest) := by
  induction signs generalizing levels with
  | nil =>
      obtain rfl : levels = finals := funext fun bracket => Option.some_inj.mp (after bracket)
      exact (consSlice_nil (slices_ne_nil _ _ _)).symm
  | cons sign signs ih =>
      obtain ⟨first, others⟩ := List.forall_mem_cons.mp wellFormed
      have steps (bracket : Bracket) : ∃ next, sign.step bracket (levels bracket) = some next ∧
          levelAfter bracket next signs = some (finals bracket) :=
        Option.bind_eq_some_iff.mp (after bracket)
      choose nexts stepped after using steps
      rw [spell_cons, List.append_assoc, slices_sign first stepped, ih others after,
        consSlice_consSlice]

/-! ## Nested signs -/

/-- Brackets are closed where they were opened, whichever backslashes are taken
away, and none of them is a brace. -/
structure Nested (signs : List Sign) : Prop where
  wellFormed : ∀ sign ∈ signs, sign.WellFormed
  balanced : ∀ kinds bracket, Balanced bracket (unescape kinds signs)
  noBraces : ∀ sign ∈ signs, ∀ c ∈ sign.char?, Bracket.curly.has c = false

namespace Nested

theorem nil : Nested [] where
  wellFormed := List.forall_mem_nil _
  balanced _ _ := rfl
  noBraces := List.forall_mem_nil _

theorem append (first : Nested signs) (second : Nested more) : Nested (signs ++ more) where
  wellFormed := List.forall_mem_append.mpr ⟨first.wellFormed, second.wellFormed⟩
  balanced kinds bracket := by
    rw [unescape_append]
    exact (first.balanced kinds bracket).append (second.balanced kinds bracket)
  noBraces := List.forall_mem_append.mpr ⟨first.noBraces, second.noBraces⟩

/-- Signs without brackets are nested. -/
theorem of_noBrackets (wellFormed : ∀ sign ∈ signs, sign.WellFormed)
    (noBrackets : ∀ sign ∈ signs, ∀ c ∈ sign.char?, ∀ bracket : Bracket, bracket.has c = false) :
    Nested signs where
  wellFormed
  balanced kinds bracket := by
    refine levelAfter_eq_self fun sign mem c inSign => ?_
    obtain ⟨old, inSigns, rfl⟩ := List.mem_map.mp mem
    rw [Sign.char?_unescape] at inSign
    exact noBrackets old inSigns c inSign bracket
  noBraces sign mem c inSign := noBrackets sign mem c inSign .curly

/-- Inside a bracket, slicing passes over nested signs. -/
theorem slices (nested : Nested signs) (kinds : List Bracket) (depth : Nat) (rest : List Char) :
    Text.slices (depth + 1) false (spell (unescape kinds signs) ++ rest) =
      consSlice (spell (unescape kinds signs)) (Text.slices (depth + 1) false rest) := by
  let unopened : Bracket → Nat := fun _ => 0
  have balanced : ∀ bracket, levelAfter bracket (unopened bracket) (unescape kinds signs) =
      some (unopened bracket) := nested.balanced kinds
  exact slices_spell (wellFormed_unescape nested.wellFormed kinds) balanced

/-- There are no braces that could lose a backslash. -/
theorem unescape_curly (nested : Nested signs) : unescape [.curly] signs = signs := by
  refine (List.map_congr_left fun sign mem => ?_).trans (List.map_id signs)
  cases sign with
  | escaped c =>
      have noBrace := nested.noBraces _ mem c rfl
      simp [Sign.unescape, noBrace]
  | _ => rfl

/-- What is cut out of brackets and nested was nested before. -/
theorem of_unescape (nested : Nested (unescape [bracket] raw)) (balanced : Balanced bracket raw) :
    Nested raw where
  wellFormed sign mem := by
    have wellFormed := nested.wellFormed _ (List.mem_map_of_mem mem)
    cases sign with
    | escaped c => trivial
    | _ => exact wellFormed
  balanced kinds other := by
    by_cases inside : other = bracket ∧ other ∉ kinds
    · obtain ⟨rfl, notMem⟩ := inside
      have same : other ∈ kinds ↔ other ∈ ([] : List Bracket) := by simp [notMem]
      rw [Balanced, levelAfter_unescape_congr same, unescape_none]
      exact balanced
    · have same : other ∈ kinds ↔ other ∈ kinds ++ [bracket] := by
        rw [List.mem_append, List.mem_singleton]
        tauto
      rw [Balanced, levelAfter_unescape_congr same, ← unescape_unescape]
      exact nested.balanced kinds other
  noBraces sign mem := by
    have noBraces := nested.noBraces _ (List.mem_map_of_mem mem)
    rwa [Sign.char?_unescape] at noBraces

end Nested

/-- Nested signs in brackets are cut out without the backslashes of those brackets,
whichever others have been taken away. -/
theorem Nested.encloses (nested : Nested raw) (bracket : Bracket) (kinds : List Bracket) :
    Encloses bracket.left bracket.right (spell (unescape kinds raw))
      (spell (unescape kinds (unescape [bracket] raw))) := by
  rw [unescape_comm]
  exact scanPaired_spell (wellFormed_unescape nested.wellFormed kinds)
    (nested.balanced kinds bracket)

/-! ## Sealed signs -/

/-- Nested signs over which slicing passes wherever they stand. -/
structure Sealed (signs : List Sign) : Prop extends Nested signs where
  sliced : ∀ kinds depth rest, slices depth false (spell (unescape kinds signs) ++ rest) =
    consSlice (spell (unescape kinds signs)) (slices depth false rest)

namespace Sealed

theorem nil : Sealed [] where
  toNested := .nil
  sliced _ _ _ := (consSlice_nil (slices_ne_nil _ _ _)).symm

theorem append (first : Sealed signs) (second : Sealed more) : Sealed (signs ++ more) where
  toNested := first.toNested.append second.toNested
  sliced kinds depth rest := by
    rw [unescape_append, spell_append, List.append_assoc, first.sliced, second.sliced,
      consSlice_consSlice]

theorem unescape (closed : Sealed signs) (kinds : List Bracket) :
    Sealed (Text.unescape kinds signs) where
  wellFormed := wellFormed_unescape closed.wellFormed kinds
  balanced others bracket := by
    rw [unescape_unescape]
    exact closed.balanced _ bracket
  noBraces sign mem := by
    obtain ⟨old, inSigns, rfl⟩ := List.mem_map.mp mem
    rw [Sign.char?_unescape]
    exact closed.noBraces old inSigns
  sliced others depth rest := by
    rw [unescape_unescape]
    exact closed.sliced _ depth rest

/-- Text without marks is sealed. -/
theorem plains (noMarks : ∀ c ∈ text, c ∉ marks) : Sealed (plains text) where
  toNested := by
    apply Nested.of_noBrackets (wellFormed_plains noMarks)
    intro sign mem c inSign bracket
    obtain ⟨d, inText, rfl⟩ := List.mem_map.mp mem
    obtain rfl : d = c := by simpa [Sign.char?] using inSign
    apply Bool.eq_false_iff.mpr
    intro isBracket
    exact noMarks d inText (Bracket.mem_marks_iff.mpr (.inr (.inr (.inr ⟨bracket, isBracket⟩))))
  sliced kinds depth rest := by
    rw [unescape_plains, spell_plains]
    have contained : SelfContained 0 text := .ofPlain noMarks
    exact Nat.zero_add depth ▸ contained.slices depth rest

theorem quoted (quotable : Quotable text) : Sealed [.quoted text] where
  toNested := .of_noBrackets (List.forall_mem_singleton.mpr quotable) (by simp [Sign.char?])
  sliced kinds depth rest := by
    have contained : SelfContained 0 (singleQuoted text) := .singleQuoted quotable
    have passed := Nat.zero_add depth ▸ contained.slices depth rest
    simpa [spell, Text.unescape, Sign.unescape, Sign.text] using passed

/-- Brackets seal what is nested between them. -/
theorem enclosed (nested : Nested raw) (noBrace : bracket ≠ .curly) :
    Sealed (.plain bracket.left :: raw ++ [.plain bracket.right]) where
  wellFormed := by
    obtain ⟨left, leftQuote, right, rightQuote⟩ := plain_bracket _ bracket.mem_brackets
    exact List.forall_mem_append.mpr ⟨List.forall_mem_cons.mpr ⟨⟨left, leftQuote⟩,
      nested.wellFormed⟩, List.forall_mem_singleton.mpr ⟨right, rightQuote⟩⟩
  balanced kinds other := by
    have inside := (nested.balanced kinds other).levelAfter
    have opened : (Sign.plain bracket.left).step other 0 = some (if other = bracket then 1 else 0) := by
      cases bracket <;> cases other <;> decide
    have closed : (Sign.plain bracket.right).step other (if other = bracket then 1 else 0) =
        some 0 := by
      cases bracket <;> cases other <;> decide
    rw [unescape_append, unescape_cons, Balanced, levelAfter_append, levelAfter_cons]
    change ((Sign.plain bracket.left).step other 0 >>= _) >>= _ = _
    rw [opened]
    change (levelAfter other _ (Text.unescape kinds raw)).bind _ = _
    rw [inside, Option.bind_some]
    change ((Sign.plain bracket.right).step other _).bind _ = _
    rw [closed]
    rfl
  noBraces := by
    have left : Bracket.curly.has bracket.left = false := by
      cases bracket <;> first | rfl | exact absurd rfl noBrace
    have right : Bracket.curly.has bracket.right = false := by
      cases bracket <;> first | rfl | exact absurd rfl noBrace
    refine List.forall_mem_append.mpr ⟨List.forall_mem_cons.mpr ⟨?_, nested.noBraces⟩,
      List.forall_mem_singleton.mpr ?_⟩
    · rintro c ⟨⟩
      exact left
    · rintro c ⟨⟩
      exact right
  sliced kinds depth rest := by
    have split : spell (Text.unescape kinds (.plain bracket.left :: raw ++ [.plain bracket.right])) =
        bracket.left :: (spell (Text.unescape kinds raw) ++ [bracket.right]) := by
      simp [Sign.unescape, Sign.text]
    rw [split, List.cons_append, List.append_assoc, slices_left bracket.mem_brackets, nested.slices,
      List.singleton_append, slices_right bracket.mem_brackets, consSlice_consSlice,
      consSlice_consSlice]
    rfl

end Sealed

end FieldRules.Text
