import FieldRules.Proofs.Text.SelfContained
import Mathlib.Data.List.Basic

/-!
# Signs

A text that scans can go through is a sequence of signs: characters that stand
for themselves, characters behind a backslash, and quoted texts.  Taking the
backslashes of brackets away is then a map, and the scan for the end of a
bracket counts plain brackets of its kind.

A text is spelled by at most one sequence of signs.
-/

namespace FieldRules.Text

/-! ## Kinds of brackets -/

/-- The kinds of brackets. -/
inductive Bracket where
  | round
  | square
  | curly
  deriving DecidableEq

namespace Bracket

/-- The opening bracket of a kind. -/
def left : Bracket → Char
  | round => '('
  | square => '['
  | curly => '{'

/-- The closing bracket of a kind. -/
def right : Bracket → Char
  | round => ')'
  | square => ']'
  | curly => '}'

/-- A character is a bracket of a kind. -/
def has (bracket : Bracket) (c : Char) : Bool :=
  c = bracket.left || c = bracket.right

theorem mem_brackets (bracket : Bracket) : (bracket.left, bracket.right) ∈ brackets := by
  cases bracket <;> decide

theorem plain_of_has {bracket : Bracket} {c : Char} (isBracket : bracket.has c = true) :
    c ≠ '\\' ∧ c ≠ '\'' := by
  rw [has, Bool.or_eq_true, decide_eq_true_eq, decide_eq_true_eq] at isBracket
  rcases isBracket with rfl | rfl <;> cases bracket <;> decide

/-- What scans look at are backslashes, quotes, commas and brackets. -/
theorem mem_marks_iff {c : Char} :
    c ∈ marks ↔ c = '\\' ∨ c = '\'' ∨ c = ',' ∨ ∃ bracket : Bracket, bracket.has c = true := by
  constructor
  · intro mark
    simp only [marks, List.mem_cons, List.not_mem_nil, or_false] at mark
    rcases mark with rfl | rfl | rfl | rfl | rfl | rfl | rfl | rfl | rfl
    · exact .inl rfl
    · exact .inr (.inl rfl)
    · exact .inr (.inr (.inr ⟨round, rfl⟩))
    · exact .inr (.inr (.inr ⟨round, rfl⟩))
    · exact .inr (.inr (.inr ⟨square, rfl⟩))
    · exact .inr (.inr (.inr ⟨square, rfl⟩))
    · exact .inr (.inr (.inr ⟨curly, rfl⟩))
    · exact .inr (.inr (.inr ⟨curly, rfl⟩))
    · exact .inr (.inr (.inl rfl))
  · rintro (rfl | rfl | rfl | ⟨bracket, isBracket⟩)
    · decide
    · decide
    · decide
    · rw [has, Bool.or_eq_true, decide_eq_true_eq, decide_eq_true_eq] at isBracket
      rcases isBracket with rfl | rfl <;> cases bracket <;> decide

/-- A bracket is of one kind only. -/
theorem eq_of_has {bracket other : Bracket} {c : Char} (isBracket : bracket.has c = true)
    (isOther : other.has c = true) : bracket = other := by
  rw [has, Bool.or_eq_true, decide_eq_true_eq, decide_eq_true_eq] at isBracket
  rcases isBracket with rfl | rfl <;> cases bracket <;> cases other <;>
    first | rfl | exact absurd isOther (by decide)

end Bracket

/-! ## Signs and their spelling -/

/-- What a scan takes in at once. -/
inductive Sign where
  /-- A character that stands for itself. -/
  | plain (c : Char)
  /-- A character behind a backslash. -/
  | escaped (c : Char)
  /-- A text between single quotes, without the backslashes of its quotes. -/
  | quoted (text : List Char)

namespace Sign

/-- A plain character is no backslash and no quote, and a quoted text can stand
between quotes. -/
def WellFormed : Sign → Prop
  | plain c => c ≠ '\\' ∧ c ≠ '\''
  | escaped _ => True
  | quoted text => Quotable text

/-- The text of a sign. -/
def text : Sign → List Char
  | plain c => [c]
  | escaped c => ['\\', c]
  | quoted text => singleQuoted text

/-- The character of a sign that is not quoted. -/
def char? : Sign → Option Char
  | plain c => some c
  | escaped c => some c
  | quoted _ => none

end Sign

/-- The text of a sequence of signs. -/
def spell (signs : List Sign) : List Char :=
  signs.flatMap Sign.text

/-- The signs of a text in which every character stands for itself. -/
def plains (text : List Char) : List Sign :=
  text.map Sign.plain

variable {signs more : List Sign} {sign : Sign} {text : List Char}

@[simp]
theorem spell_nil : spell [] = [] :=
  rfl

@[simp]
theorem spell_cons (sign : Sign) (signs : List Sign) :
    spell (sign :: signs) = sign.text ++ spell signs :=
  rfl

@[simp]
theorem spell_append (signs more : List Sign) :
    spell (signs ++ more) = spell signs ++ spell more :=
  List.flatMap_append

@[simp]
theorem plains_nil : plains [] = [] :=
  rfl

theorem plains_append (text more : List Char) : plains (text ++ more) = plains text ++ plains more :=
  List.map_append

@[simp]
theorem spell_plains (text : List Char) : spell (plains text) = text := by
  induction text with
  | nil => rfl
  | cons c text ih => exact congrArg (c :: ·) ih

theorem spell_quoted (text : List Char) : spell [.quoted text] = singleQuoted text := by
  simp [Sign.text]

theorem wellFormed_plains (noMarks : ∀ c ∈ text, c ∉ marks) :
    ∀ sign ∈ plains text, sign.WellFormed := by
  intro sign mem
  obtain ⟨c, inText, rfl⟩ := List.mem_map.mp mem
  constructor
  · intro backslash
    exact noMarks c inText (Bracket.mem_marks_iff.mpr (.inl backslash))
  · intro quote
    exact noMarks c inText (Bracket.mem_marks_iff.mpr (.inr (.inl quote)))

/-- Maps that keep concatenations keep separated lists. -/
theorem map_intercalate {α β : Type} {f : List α → List β} (nil : f [] = [])
    (append : ∀ first second, f (first ++ second) = f first ++ f second) (separator : List α)
    (parts : List (List α)) : f (separator.intercalate parts) =
      (f separator).intercalate (parts.map f) := by
  induction parts with
  | nil => exact nil
  | cons part parts ih =>
      cases parts with
      | nil => simp
      | cons next parts =>
          rw [List.intercalate_cons_cons, List.map_cons, List.map_cons, List.intercalate_cons_cons,
            append, append, ih, List.map_cons]

theorem spell_intercalate (separator : List Sign) (parts : List (List Sign)) :
    spell (separator.intercalate parts) = (spell separator).intercalate (parts.map spell) :=
  map_intercalate spell_nil spell_append separator parts

/-! ## One spelling only -/

/-- The first sign is determined by the text. -/
theorem spell_cons_inj {other : Sign} {rest after : List Char} (wellFormed : sign.WellFormed)
    (otherWellFormed : other.WellFormed) (same : sign.text ++ rest = other.text ++ after) :
    sign = other ∧ rest = after := by
  cases sign with
  | plain c =>
      cases other with
      | plain d =>
          obtain ⟨rfl, rest⟩ := List.cons.inj same
          exact ⟨rfl, rest⟩
      | escaped d => exact absurd (List.cons.inj same).1 wellFormed.1
      | quoted text => exact absurd (List.cons.inj same).1 wellFormed.2
  | escaped c =>
      cases other with
      | plain d => exact absurd (List.cons.inj same).1.symm otherWellFormed.1
      | escaped d =>
          obtain ⟨rfl, rest⟩ := List.cons.inj (List.cons.inj same).2
          exact ⟨rfl, rest⟩
      | quoted text => exact absurd (List.cons.inj same).1 (by decide)
  | quoted text =>
      cases other with
      | plain d => exact absurd (List.cons.inj same).1.symm otherWellFormed.2
      | escaped d => exact absurd (List.cons.inj same).1 (by decide)
      | quoted other =>
          have scanned := congrArg (scanPaired '\'' '\'') same
          rw [Sign.text, Sign.text, scanPaired_singleQuoted wellFormed,
            scanPaired_singleQuoted otherWellFormed, Option.some_inj, Prod.mk.injEq] at scanned
          exact ⟨congrArg Sign.quoted scanned.1, scanned.2⟩

theorem Sign.text_ne_nil (sign : Sign) : sign.text ≠ [] := by
  cases sign <;> simp [Sign.text, singleQuoted]

/-- A text is spelled in one way at most. -/
theorem spell_injective (wellFormed : ∀ sign ∈ signs, sign.WellFormed)
    (moreWellFormed : ∀ sign ∈ more, sign.WellFormed) (same : spell signs = spell more) :
    signs = more := by
  induction signs generalizing more with
  | nil =>
      cases more with
      | nil => rfl
      | cons sign more =>
          exact absurd (List.append_eq_nil_iff.mp same.symm).1 sign.text_ne_nil
  | cons sign signs ih =>
      cases more with
      | nil => exact absurd (List.append_eq_nil_iff.mp same).1 sign.text_ne_nil
      | cons other more =>
          obtain ⟨first, rest⟩ := List.forall_mem_cons.mp wellFormed
          obtain ⟨otherFirst, otherRest⟩ := List.forall_mem_cons.mp moreWellFormed
          obtain ⟨rfl, sameRest⟩ := spell_cons_inj first otherFirst same
          rw [ih rest otherRest sameRest]

/-! ## Taking backslashes away -/

/-- Take the backslash of a bracket of one of some kinds away. -/
def Sign.unescape (kinds : List Bracket) : Sign → Sign
  | escaped c => if kinds.any (·.has c) then plain c else escaped c
  | sign => sign

/-- Take the backslashes of all brackets of some kinds away. -/
def unescape (kinds : List Bracket) (signs : List Sign) : List Sign :=
  signs.map (Sign.unescape kinds)

@[simp]
theorem unescape_nil (kinds : List Bracket) : unescape kinds [] = [] :=
  rfl

@[simp]
theorem unescape_cons (kinds : List Bracket) (sign : Sign) (signs : List Sign) :
    unescape kinds (sign :: signs) = sign.unescape kinds :: unescape kinds signs :=
  rfl

@[simp]
theorem unescape_append (kinds : List Bracket) (signs more : List Sign) :
    unescape kinds (signs ++ more) = unescape kinds signs ++ unescape kinds more :=
  List.map_append

@[simp]
theorem unescape_plains (kinds : List Bracket) (text : List Char) :
    unescape kinds (plains text) = plains text := by
  simp [unescape, plains, Sign.unescape]

theorem unescape_intercalate (kinds : List Bracket) (separator : List Sign)
    (parts : List (List Sign)) : unescape kinds (separator.intercalate parts) =
      (unescape kinds separator).intercalate (parts.map (unescape kinds)) :=
  map_intercalate (unescape_nil kinds) (unescape_append kinds) separator parts

/-- Taking away the backslashes of some kinds after others is taking away all of
them. -/
theorem Sign.unescape_unescape (kinds others : List Bracket) (sign : Sign) :
    (sign.unescape others).unescape kinds = sign.unescape (kinds ++ others) := by
  cases sign with
  | escaped c =>
      cases inOthers : others.any (·.has c) <;>
        simp only [unescape, List.any_append, inOthers, Bool.or_false, Bool.or_true, if_true,
          Bool.false_eq_true, if_false]
  | _ => rfl

theorem unescape_unescape (kinds others : List Bracket) (signs : List Sign) :
    unescape kinds (unescape others signs) = unescape (kinds ++ others) signs := by
  simp [unescape, Function.comp_def, Sign.unescape_unescape]

theorem unescape_comm (kinds others : List Bracket) (signs : List Sign) :
    unescape kinds (unescape others signs) = unescape others (unescape kinds signs) := by
  rw [unescape_unescape, unescape_unescape]
  refine List.map_congr_left fun sign _ => ?_
  cases sign with
  | escaped c => simp only [Sign.unescape, List.any_append, Bool.or_comm]
  | _ => rfl

theorem unescape_none (signs : List Sign) : unescape [] signs = signs := by
  refine (List.map_congr_left fun sign _ => ?_).trans (List.map_id signs)
  cases sign <;> rfl

/-- Quotes are left alone. -/
theorem unescape_eq_quoted_iff {kinds : List Bracket} :
    unescape kinds signs = [.quoted text] ↔ signs = [.quoted text] := by
  constructor
  · intro same
    obtain ⟨sign, rfl, sameSign⟩ := List.map_eq_singleton_iff.mp same
    cases sign with
    | plain c => cases sameSign
    | escaped c =>
        rw [Sign.unescape] at sameSign
        split_ifs at sameSign
    | quoted text =>
        cases sameSign
        rfl
  · rintro rfl
    rfl

/-- A text without marks is what it was before backslashes were taken away. -/
theorem eq_plains_of_unescape {kinds : List Bracket} (noMarks : ∀ c ∈ text, c ∉ marks)
    (same : unescape kinds signs = plains text) : signs = plains text := by
  induction signs generalizing text with
  | nil => exact same
  | cons sign signs ih =>
      cases text with
      | nil => cases same
      | cons c text =>
          obtain ⟨sameSign, sameRest⟩ := List.cons.inj same
          obtain ⟨noMark, noMarks⟩ := List.forall_mem_cons.mp noMarks
          have first : sign = .plain c := by
            cases sign with
            | plain d => exact sameSign
            | escaped d =>
                rw [Sign.unescape] at sameSign
                split_ifs at sameSign with isBracket
                cases sameSign
                obtain ⟨bracket, -, isBracket⟩ := List.any_eq_true.mp isBracket
                exact absurd
                  (Bracket.mem_marks_iff.mpr (.inr (.inr (.inr ⟨bracket, isBracket⟩)))) noMark
            | quoted text => cases sameSign
          rw [first, ih noMarks sameRest]
          rfl

theorem Sign.WellFormed.unescape (wellFormed : sign.WellFormed) (kinds : List Bracket) :
    (sign.unescape kinds).WellFormed := by
  cases sign with
  | escaped c =>
      rw [Sign.unescape]
      split_ifs with isBracket
      · obtain ⟨bracket, -, isBracket⟩ := List.any_eq_true.mp isBracket
        exact Bracket.plain_of_has isBracket
      · trivial
  | _ => exact wellFormed

theorem wellFormed_unescape (wellFormed : ∀ sign ∈ signs, sign.WellFormed)
    (kinds : List Bracket) : ∀ sign ∈ unescape kinds signs, sign.WellFormed := by
  intro sign mem
  obtain ⟨old, inSigns, rfl⟩ := List.mem_map.mp mem
  exact (wellFormed old inSigns).unescape kinds

@[simp]
theorem Sign.char?_unescape (kinds : List Bracket) (sign : Sign) :
    (sign.unescape kinds).char? = sign.char? := by
  cases sign with
  | escaped c =>
      rw [unescape]
      split_ifs <;> rfl
  | _ => rfl

/-- Without backslashes a text is not longer. -/
theorem length_spell_unescape_le (kinds : List Bracket) (signs : List Sign) :
    (spell (unescape kinds signs)).length ≤ (spell signs).length := by
  induction signs with
  | nil => exact Nat.le_refl 0
  | cons sign signs ih =>
      have first : (sign.unescape kinds).text.length ≤ sign.text.length := by
        cases sign with
        | escaped c =>
            rw [Sign.unescape]
            split_ifs <;> simp [Sign.text]
        | _ => exact Nat.le_refl _
      simp only [unescape_cons, spell_cons, List.length_append]
      exact Nat.add_le_add first ih

/-! ## Levels -/

/-- The level of a kind of brackets behind a sign, unless a bracket is closed that
was not opened. -/
def Sign.step (bracket : Bracket) (level : Nat) : Sign → Option Nat
  | plain c =>
      if c = bracket.left then some (level + 1)
      else if c = bracket.right then if level = 0 then none else some (level - 1)
      else some level
  | _ => some level

/-- The level of a kind of brackets behind a sequence of signs. -/
def levelAfter (bracket : Bracket) (level : Nat) (signs : List Sign) : Option Nat :=
  signs.foldlM (Sign.step bracket) level

variable {bracket : Bracket} {level final : Nat}

@[simp]
theorem levelAfter_nil (bracket : Bracket) (level : Nat) : levelAfter bracket level [] = some level :=
  rfl

theorem levelAfter_cons (bracket : Bracket) (level : Nat) (sign : Sign) (signs : List Sign) :
    levelAfter bracket level (sign :: signs) =
      (sign.step bracket level).bind fun next => levelAfter bracket next signs :=
  rfl

theorem levelAfter_append (bracket : Bracket) (level : Nat) (signs more : List Sign) :
    levelAfter bracket level (signs ++ more) =
      (levelAfter bracket level signs).bind fun next => levelAfter bracket next more :=
  List.foldlM_append

theorem Sign.step_eq_self (noBracket : ∀ c ∈ sign.char?, bracket.has c = false) :
    sign.step bracket level = some level := by
  cases sign with
  | plain c =>
      have other := noBracket c rfl
      simp only [Bracket.has, Bool.or_eq_false_iff, decide_eq_false_iff_not] at other
      rw [step, if_neg other.1, if_neg other.2]
  | _ => rfl

/-- Signs that are no brackets of a kind leave its level. -/
theorem levelAfter_eq_self
    (noBracket : ∀ sign ∈ signs, ∀ c ∈ sign.char?, bracket.has c = false) :
    levelAfter bracket level signs = some level := by
  induction signs with
  | nil => rfl
  | cons sign signs ih =>
      obtain ⟨first, rest⟩ := List.forall_mem_cons.mp noBracket
      rw [levelAfter_cons, Sign.step_eq_self first, Option.bind_some, ih rest]

/-- Levels count from wherever they start. -/
theorem levelAfter_add (levels : levelAfter bracket level signs = some final) (base : Nat) :
    levelAfter bracket (level + base) signs = some (final + base) := by
  induction signs generalizing level with
  | nil =>
      cases levels
      rfl
  | cons sign signs ih =>
      obtain ⟨next, stepped, levels⟩ := Option.bind_eq_some_iff.mp levels
      have stepped : sign.step bracket (level + base) = some (next + base) := by
        cases sign with
        | plain c =>
            rw [Sign.step] at stepped ⊢
            split_ifs at stepped ⊢ with opens closes zero
            · cases stepped
              rw [Nat.add_right_comm]
            · cases stepped
              omega
            · cases stepped
              congr 1
              omega
            · cases stepped
              rfl
        | _ =>
            cases stepped
            rfl
      rw [levelAfter_cons, stepped, Option.bind_some, ih levels]

/-- Only the backslashes of its own brackets matter to the level of a kind. -/
theorem levelAfter_unescape_congr {kinds others : List Bracket}
    (same : bracket ∈ kinds ↔ bracket ∈ others) :
    levelAfter bracket level (unescape kinds signs) =
      levelAfter bracket level (unescape others signs) := by
  have steps (level : Nat) (sign : Sign) :
      (sign.unescape kinds).step bracket level = (sign.unescape others).step bracket level := by
    by_cases isBracket : ∃ c ∈ sign.char?, bracket.has c = true
    · obtain ⟨c, mem, isBracket⟩ := isBracket
      cases sign with
      | escaped d =>
          obtain rfl : d = c := by simpa [Sign.char?] using mem
          have iff (kinds : List Bracket) : kinds.any (·.has d) = true ↔ bracket ∈ kinds := by
            rw [List.any_eq_true]
            constructor
            · rintro ⟨other, inKinds, isOther⟩
              exact Bracket.eq_of_has isBracket isOther ▸ inKinds
            · exact fun inKinds => ⟨bracket, inKinds, isBracket⟩
          simp only [Sign.unescape, iff, same]
      | _ => rfl
    · have noBracket : ∀ c ∈ sign.char?, bracket.has c = false :=
        fun c mem => Bool.eq_false_iff.mpr fun isOne => isBracket ⟨c, mem, isOne⟩
      rw [Sign.step_eq_self (by simpa using noBracket), Sign.step_eq_self (by simpa using noBracket)]
  induction signs generalizing level with
  | nil => rfl
  | cons sign signs ih =>
      rw [unescape_cons, unescape_cons, levelAfter_cons, levelAfter_cons, steps]
      exact Option.bind_congr fun next _ => ih

/-- Every bracket of a kind is closed behind where it is opened. -/
def Balanced (bracket : Bracket) (signs : List Sign) : Prop :=
  levelAfter bracket 0 signs = some 0

theorem Balanced.levelAfter (balanced : Balanced bracket signs) (level : Nat) :
    Text.levelAfter bracket level signs = some level := by
  simpa using levelAfter_add balanced level

theorem Balanced.append (first : Balanced bracket signs) (second : Balanced bracket more) :
    Balanced bracket (signs ++ more) := by
  rw [Balanced, levelAfter_append, first, Option.bind_some, second]

end FieldRules.Text
