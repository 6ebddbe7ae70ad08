import FieldRules.Proofs.Text.Blank
import FieldRules.Proofs.Text.Quotable
import FieldRules.Text.Pieces
import Mathlib.Tactic.FinCases

/-!
# Self-contained text

A text is self-contained when every bracket and quote that it opens is closed in
it, in whatever place it stands: a scan for the end of a bracket copies it, and
the slicing of an argument list passes over it.  Self-contained texts are closed
under concatenation, and anything in brackets is self-contained when its content
is.
-/

namespace FieldRules.Text

/-- The brackets of expressions. -/
def brackets : List (Char × Char) :=
  [('(', ')'), ('[', ']'), ('{', '}')]

/-- The characters that scans look at. -/
def marks : List Char :=
  ['\\', '\'', '(', ')', '[', ']', '{', '}', ',']

/-- Scans copy a text as it stands, from a bracket depth of `depth` on: commas
count at depth zero only. -/
structure SelfContained (depth : Nat) (text : List Char) : Prop where
  scan : ∀ pair ∈ brackets, ∀ level rest,
    scanContent pair.1 pair.2 level false (text ++ rest) =
      prepend text (scanContent pair.1 pair.2 level false rest)
  slices : ∀ deeper rest,
    slices (depth + deeper) false (text ++ rest) =
      consSlice text (slices (depth + deeper) false rest)

/-! ## Slices -/

theorem slices_ne_nil (depth : Nat) (quoted : Bool) (text : List Char) :
    slices depth quoted text ≠ [] := by
  fun_induction slices depth quoted text <;> simp [consSlice] <;> split <;> simp

theorem consSlice_nil {slices : List (List Char)} (some : slices ≠ []) :
    consSlice [] slices = slices := by
  cases slices with
  | nil => exact absurd rfl some
  | cons slice slices => rfl

@[simp]
theorem consSlice_consSlice (text more : List Char) (slices : List (List Char)) :
    consSlice text (consSlice more slices) = consSlice (text ++ more) slices := by
  cases slices <;> simp [consSlice]

theorem intercalate_consSlice (text : List Char) (slices : List (List Char)) :
    [','].intercalate (consSlice text slices) = text ++ [','].intercalate slices := by
  match slices with
  | [] => simp [consSlice]
  | [slice] => simp [consSlice]
  | slice :: next :: slices => simp [consSlice, List.intercalate_cons_cons]

/-- Slicing takes nothing away but the commas. -/
theorem intercalate_slices (depth : Nat) (quoted : Bool) (text : List Char) :
    [','].intercalate (slices depth quoted text) = text := by
  have comma {rest : List Char} {slices : List (List Char)} (some : slices ≠ [])
      (same : [','].intercalate slices = rest) :
      [','].intercalate ([] :: slices) = ',' :: rest := by
    cases slices with
    | nil => exact absurd rfl some
    | cons slice slices => rw [List.intercalate_cons_cons, same]; rfl
  fun_induction slices depth quoted text <;> simp_all [intercalate_consSlice, slices_ne_nil]

variable {c left right : Char} {depth level : Nat} {rest : List Char}

theorem slices_unit {quoted : Bool} :
    slices depth quoted ('\\' :: c :: rest) = consSlice ['\\', c] (slices depth quoted rest) := by
  simp [slices]

theorem slices_quote {quoted : Bool} :
    slices depth quoted ('\'' :: rest) = consSlice ['\''] (slices depth (!quoted) rest) := by
  cases rest <;> simp [slices]

theorem slices_quoted_char (noBackslash : c ≠ '\\') (noQuote : c ≠ '\'') :
    slices depth true (c :: rest) = consSlice [c] (slices depth true rest) := by
  cases rest <;> simp [slices, noBackslash, noQuote]

theorem slices_left (mem : (left, right) ∈ brackets) :
    slices depth false (left :: rest) = consSlice [left] (slices (depth + 1) false rest) := by
  simp only [brackets, List.mem_cons, Prod.mk.injEq, List.not_mem_nil, or_false] at mem
  rcases mem with ⟨rfl, rfl⟩ | ⟨rfl, rfl⟩ | ⟨rfl, rfl⟩ <;> cases rest <;> simp [slices]

theorem slices_right (mem : (left, right) ∈ brackets) :
    slices (depth + 1) false (right :: rest) = consSlice [right] (slices depth false rest) := by
  simp only [brackets, List.mem_cons, Prod.mk.injEq, List.not_mem_nil, or_false] at mem
  rcases mem with ⟨rfl, rfl⟩ | ⟨rfl, rfl⟩ | ⟨rfl, rfl⟩ <;> cases rest <;> simp [slices]

theorem slices_comma : slices 0 false (',' :: rest) = [] :: slices 0 false rest := by
  cases rest <;> simp [slices]

theorem slices_comma_inside :
    slices (depth + 1) false (',' :: rest) = consSlice [','] (slices (depth + 1) false rest) := by
  cases rest <;> simp [slices]

theorem slices_plain (plain : c ∉ marks) :
    slices depth false (c :: rest) = consSlice [c] (slices depth false rest) := by
  simp only [marks, List.mem_cons, List.not_mem_nil, or_false, not_or] at plain
  cases rest <;> simp [slices, plain]

/-- A quoted run is passed over. -/
theorem slices_quoted_escapeQuotes {text : List Char} (quotable : Quotable text) :
    slices depth true (escapeQuotes text ++ '\'' :: rest) =
      consSlice (escapeQuotes text ++ ['\'']) (slices depth false rest) := by
  refine quotable.induction ?_ (fun c text noBackslash ih => ?_) fun c text noQuote ih => ?_
  · exact slices_quote
  · by_cases quote : c = '\''
    · subst quote
      rw [escapeQuotes_cons_quote, List.cons_append, List.cons_append, slices_unit, ih,
        consSlice_consSlice]
      rfl
    · rw [escapeQuotes_cons quote, List.cons_append, slices_quoted_char noBackslash quote, ih,
        consSlice_consSlice]
      rfl
  · rw [escapeQuotes_cons (by decide), escapeQuotes_cons noQuote, List.cons_append,
      List.cons_append, slices_unit, ih, consSlice_consSlice]
    rfl

/-! ## Scans between brackets -/

theorem scanContent_left (mem : (left, right) ∈ brackets) :
    scanContent left right level false (left :: rest) =
      prepend [left] (scanContent left right (level + 1) false rest) := by
  simp only [brackets, List.mem_cons, Prod.mk.injEq, List.not_mem_nil, or_false] at mem
  rcases mem with ⟨rfl, rfl⟩ | ⟨rfl, rfl⟩ | ⟨rfl, rfl⟩ <;> cases rest <;>
    simp [scanContent, prepend]

theorem scanContent_right_inside (mem : (left, right) ∈ brackets) :
    scanContent left right (level + 1) false (right :: rest) =
      prepend [right] (scanContent left right level false rest) := by
  simp only [brackets, List.mem_cons, Prod.mk.injEq, List.not_mem_nil, or_false] at mem
  rcases mem with ⟨rfl, rfl⟩ | ⟨rfl, rfl⟩ | ⟨rfl, rfl⟩ <;> cases rest <;>
    simp [scanContent, prepend]

theorem scanContent_quote (mem : (left, right) ∈ brackets) :
    scanContent left right level false ('\'' :: rest) =
      prepend ['\''] (scanContent left right level true rest) := by
  simp only [brackets, List.mem_cons, Prod.mk.injEq, List.not_mem_nil, or_false] at mem
  rcases mem with ⟨rfl, rfl⟩ | ⟨rfl, rfl⟩ | ⟨rfl, rfl⟩ <;> cases rest <;>
    simp [scanContent, prepend]

theorem scanContent_other (noBackslash : c ≠ '\\') (noQuote : c ≠ '\'') (noLeft : c ≠ left)
    (noRight : c ≠ right) :
    scanContent left right level false (c :: rest) =
      prepend [c] (scanContent left right level false rest) := by
  cases rest <;> simp [scanContent, prepend, noBackslash, noQuote, noLeft, noRight]

/-- Brackets of different kinds have nothing in common. -/
theorem brackets_disjoint : ∀ pair ∈ brackets, ∀ other ∈ brackets, pair ≠ other →
    pair.1 ≠ other.1 ∧ pair.1 ≠ other.2 ∧ pair.2 ≠ other.1 ∧ pair.2 ≠ other.2 := by
  decide

theorem marks_of_mem_brackets : ∀ pair ∈ brackets, pair.1 ∈ marks ∧ pair.2 ∈ marks := by
  decide

theorem marks_shown : ∀ c ∈ marks, isBlank c = false := by
  intro c mem
  fin_cases mem <;> rfl

theorem plain_bracket : ∀ pair ∈ brackets,
    pair.1 ≠ '\\' ∧ pair.1 ≠ '\'' ∧ pair.2 ≠ '\\' ∧ pair.2 ≠ '\'' := by
  decide

theorem comma_ne_bracket : ∀ pair ∈ brackets, ',' ≠ pair.1 ∧ ',' ≠ pair.2 := by
  decide

/-! ## Self-contained texts -/

namespace SelfContained

theorem nil (depth : Nat) : SelfContained depth [] where
  scan _ _ _ _ := (prepend_nil _).symm
  slices _ _ := (consSlice_nil (slices_ne_nil _ _ _)).symm

theorem append {first second : List Char} (firstContained : SelfContained depth first)
    (secondContained : SelfContained depth second) : SelfContained depth (first ++ second) where
  scan pair mem level rest := by
    rw [List.append_assoc, firstContained.scan pair mem, secondContained.scan pair mem,
      prepend_prepend]
  slices deeper rest := by
    rw [List.append_assoc, firstContained.slices, secondContained.slices, consSlice_consSlice]

theorem inside {text : List Char} (contained : SelfContained depth text) (deeper : Nat) :
    SelfContained (depth + deeper) text where
  scan := contained.scan
  slices deepest rest := by
    rw [Nat.add_assoc]
    exact contained.slices _ _

theorem flatten {texts : List (List Char)} (contained : ∀ text ∈ texts, SelfContained depth text) :
    SelfContained depth texts.flatten := by
  induction texts with
  | nil => exact nil depth
  | cons text texts ih =>
      exact (contained text List.mem_cons_self).append
        (ih fun text mem => contained text (List.mem_cons_of_mem _ mem))

theorem plain {c : Char} (plain : c ∉ marks) : SelfContained depth [c] where
  scan pair mem level rest := by
    obtain ⟨leftMark, rightMark⟩ := marks_of_mem_brackets pair mem
    refine scanContent_other ?_ ?_ ?_ ?_ <;> rintro rfl <;> apply plain
    · decide
    · decide
    · exact leftMark
    · exact rightMark
  slices _ _ := slices_plain plain

/-- Text without marks is self-contained. -/
theorem ofPlain {text : List Char} (plain : ∀ c ∈ text, c ∉ marks) : SelfContained depth text := by
  induction text with
  | nil => exact nil depth
  | cons c text ih =>
      exact (SelfContained.plain (plain c List.mem_cons_self)).append
        (ih fun c mem => plain c (List.mem_cons_of_mem _ mem))

theorem marks_not_layout : ∀ c ∈ marks, isLayout c = false :=
  fun c mark => isLayout_eq_false (marks_shown c mark)

theorem ofGap {gap : List Char} (layout : IsGap gap) : SelfContained depth gap := by
  refine .ofPlain fun c mem mark => ?_
  have shown := marks_not_layout c mark
  rw [layout c mem] at shown
  cases shown

/-- A comma counts at the outermost level only. -/
theorem comma : SelfContained 1 [','] where
  scan pair mem level rest := by
    obtain ⟨noLeft, noRight⟩ := comma_ne_bracket pair mem
    exact scanContent_other (by decide) (by decide) noLeft noRight
  slices deeper rest := by
    rw [Nat.add_comm]
    exact slices_comma_inside

theorem singleQuoted {text : List Char} (quotable : Quotable text) :
    SelfContained depth (singleQuoted text) where
  scan pair mem level rest := by
    rw [FieldRules.singleQuoted, List.cons_append, List.cons_append, List.append_assoc, scanContent_quote mem]
    exact scanContent_quoted_escapeQuotes quotable rest ▸ prepend_prepend _ _ _
  slices deeper rest := by
    rw [FieldRules.singleQuoted, List.cons_append, List.cons_append, List.append_assoc, slices_quote]
    exact slices_quoted_escapeQuotes quotable ▸ consSlice_consSlice _ _ _

/-- Text in brackets is self-contained when its content is. -/
theorem enclosed {pair : Char × Char} (mem : pair ∈ brackets) {content : List Char}
    (contained : SelfContained 1 content) :
    SelfContained depth (pair.1 :: content ++ [pair.2]) where
  scan other otherMem level rest := by
    by_cases same : other = pair
    · subst same
      rw [List.append_assoc, List.cons_append, scanContent_left mem, contained.scan other mem,
        List.singleton_append, scanContent_right_inside mem, prepend_prepend, prepend_prepend]
      rfl
    · obtain ⟨h1, h2, h3, h4⟩ := brackets_disjoint other otherMem pair mem same
      obtain ⟨p1, p2, p3, p4⟩ := plain_bracket pair mem
      rw [List.append_assoc, List.cons_append, scanContent_other p1 p2 h1.symm h3.symm,
        contained.scan other otherMem, List.singleton_append,
        scanContent_other p3 p4 h2.symm h4.symm, prepend_prepend, prepend_prepend]
      rfl
  slices deeper rest := by
    rw [List.append_assoc, List.cons_append, slices_left mem, Nat.add_comm _ 1,
      contained.slices, List.singleton_append, Nat.add_comm 1, slices_right mem,
      consSlice_consSlice, consSlice_consSlice]
    rfl

end SelfContained

/-! ## Texts in brackets and argument lists -/

/-- In brackets, a text is cut out with a given content, whatever follows. -/
def Encloses (left right : Char) (text content : List Char) : Prop :=
  ∀ after, scanPaired left right (left :: text ++ right :: after) = some (content, after)

/-- Self-contained text in brackets is cut out as it stands. -/
theorem SelfContained.encloses {pair : Char × Char} (mem : pair ∈ brackets) {content : List Char}
    (contained : SelfContained depth content) : Encloses pair.1 pair.2 content content := by
  intro after
  rw [List.cons_append, scanPaired, if_pos rfl, contained.scan pair mem,
    scanContent_right (plain_bracket pair mem).2.2.1, prepend_some, List.append_nil]

/-- Slicing passes over a text in an argument list. -/
def Unsliced (text : List Char) : Prop :=
  ∀ rest, slices 0 false (text ++ rest) = consSlice text (slices 0 false rest)

theorem SelfContained.unsliced {text : List Char} (contained : SelfContained 0 text) :
    Unsliced text :=
  contained.slices 0

/-- An argument list is sliced at the commas between texts that are not. -/
theorem slices_intercalate {texts : List (List Char)} (some : texts ≠ [])
    (unsliced : ∀ text ∈ texts, Unsliced text) :
    slices 0 false ([','].intercalate texts) = texts := by
  induction texts with
  | nil => exact absurd rfl some
  | cons text texts ih =>
      have first := unsliced text List.mem_cons_self
      cases texts with
      | nil => simpa [consSlice, slices] using first []
      | cons next texts =>
          rw [List.intercalate_cons_cons, List.append_assoc, first, List.singleton_append,
            slices_comma, ih (by simp) fun text mem => unsliced text (List.mem_cons_of_mem _ mem)]
          simp [consSlice]

/-- An argument list that is not blank has the texts between its commas as its
pieces. -/
theorem pieces_intercalate {texts : List (List Char)} (some : texts ≠ [])
    (unsliced : ∀ text ∈ texts, Unsliced text)
    (shown : isBlankText ([','].intercalate texts) = false) :
    pieces ([','].intercalate texts) = texts.map trim := by
  rw [pieces, shown, slices_intercalate some unsliced]
  rfl

end FieldRules.Text
