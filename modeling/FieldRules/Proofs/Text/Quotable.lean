import FieldRules.Expr.Printer
import FieldRules.Text.Delimited
import Mathlib.Algebra.Group.Nat.Even
import Mathlib.Tactic.SplitIfs

/-!
# Quoted text

Between single quotes a backslash and the character behind it are one unit.  A
text can stand between quotes when no unit of it swallows a quote: every run of
backslashes right before a quote or at the end of the text has even length.
Scanning the quoted form of such a text gives the text back.
-/

namespace FieldRules.Text

/-! ## Texts that can be quoted -/

/-- Every run of backslashes right before a quote or at the end has even length. -/
def Quotable (text : List Char) : Prop :=
  ∀ before count after, text = before ++ List.replicate count '\\' ++ after →
    before.getLast? ≠ some '\\' → after = [] ∨ after.head? = some '\'' → Even count

/-- Text without backslashes can be quoted. -/
theorem quotable_of_not_mem {text : List Char} (plain : '\\' ∉ text) : Quotable text := by
  intro before count after split _ _
  cases count with
  | zero => exact Even.zero
  | succ count => exact absurd (by simp [split, List.replicate_succ]) plain

/-- Dropping a part that does not end within a run of backslashes. -/
theorem Quotable.of_append (first : List Char) {rest : List Char}
    (quotable : Quotable (first ++ rest)) (ends : first.getLast? ≠ some '\\') : Quotable rest := by
  intro before count after split notLast closes
  refine quotable (first ++ before) count after (by simp [split]) ?_ closes
  rw [List.getLast?_append]
  cases last : before.getLast? with
  | none => simpa using ends
  | some c => simpa [last] using notLast

theorem Quotable.tail {c : Char} {rest : List Char} (quotable : Quotable (c :: rest))
    (plain : c ≠ '\\') : Quotable rest :=
  Quotable.of_append [c] quotable (by simpa using plain)

/-- No unit of a quotable text swallows a quote. -/
theorem Quotable.unit_ne_quote {c : Char} {rest : List Char}
    (quotable : Quotable ('\\' :: c :: rest)) : c ≠ '\'' := by
  rintro rfl
  exact absurd (quotable [] 1 ('\'' :: rest) rfl (by simp) (.inr rfl)) (by decide)

theorem not_quotable_backslash : ¬ Quotable ['\\'] := by
  intro quotable
  exact absurd (quotable [] 1 [] rfl (by simp) (.inl rfl)) (by decide)

theorem Quotable.of_unit {c : Char} {rest : List Char}
    (quotable : Quotable ('\\' :: c :: rest)) : Quotable rest := by
  by_cases backslash : c = '\\'
  · subst backslash
    intro before count after split notLast closes
    cases before with
    | nil =>
        have even : Even (count + 2) :=
          quotable [] (count + 2) after (by simp [split, List.replicate_succ]) (by simp) closes
        exact (Nat.even_add.mp even).mpr (by decide)
    | cons first before =>
        refine quotable ('\\' :: '\\' :: first :: before) count after (by simp [split]) ?_ closes
        simpa using notLast
  · exact Quotable.of_append ['\\', c] quotable (by simpa using backslash)

theorem quotable_nil : Quotable [] :=
  quotable_of_not_mem (List.not_mem_nil)

/-- A character that is no backslash may stand in front. -/
theorem Quotable.cons {c : Char} {rest : List Char} (quotable : Quotable rest)
    (plain : c ≠ '\\') : Quotable (c :: rest) := by
  intro before count after split notLast closes
  cases before with
  | nil =>
      cases count with
      | zero => exact Even.zero
      | succ count => exact absurd (List.cons.inj split).1 plain
  | cons first before =>
      refine quotable before count after (List.cons.inj split).2 (fun last => notLast ?_) closes
      rw [List.getLast?_cons, last, Option.getD_some]

/-- A unit that swallows no quote may stand in front. -/
theorem Quotable.unit {c : Char} {rest : List Char} (quotable : Quotable rest)
    (plain : c ≠ '\'') : Quotable ('\\' :: c :: rest) := by
  intro before count after split notLast closes
  match before with
  | [] =>
      match count with
      | 0 => exact Even.zero
      | 1 =>
          obtain rfl : c :: rest = after := (List.cons.inj split).2
          exact absurd closes (by simpa using plain)
      | count + 2 =>
          have split : rest = [] ++ List.replicate count '\\' ++ after :=
            (List.cons.inj (List.cons.inj split).2).2
          exact (quotable [] count after split notLast closes).add (by decide)
  | [first] =>
      obtain rfl : '\\' = first := (List.cons.inj split).1
      exact absurd rfl notLast
  | first :: second :: before =>
      refine quotable before count after (List.cons.inj (List.cons.inj split).2).2
        (fun last => notLast ?_) closes
      simp [List.getLast?_cons, last]

/-- Induction on the units of a quotable text. -/
@[elab_as_elim]
theorem Quotable.induction {motive : List Char → Prop} {text : List Char}
    (quotable : Quotable text) (nil : motive [])
    (char : ∀ c rest, c ≠ '\\' → motive rest → motive (c :: rest))
    (unit : ∀ c rest, c ≠ '\'' → motive rest → motive ('\\' :: c :: rest)) : motive text := by
  match text with
  | [] => exact nil
  | c :: rest =>
      by_cases backslash : c = '\\'
      · subst backslash
        match rest with
        | [] => exact absurd quotable not_quotable_backslash
        | c :: rest =>
            exact unit c rest quotable.unit_ne_quote (quotable.of_unit.induction nil char unit)
      · exact char c rest backslash ((quotable.tail backslash).induction nil char unit)

/-! ## Scanning quoted text -/

/-- Put text in front of a scanned content. -/
def prepend (unit : List Char) : Option (List Char × List Char) → Option (List Char × List Char) :=
  Option.map fun (content, after) => (unit ++ content, after)

@[simp]
theorem prepend_some (unit content after : List Char) :
    prepend unit (some (content, after)) = some (unit ++ content, after) :=
  rfl

@[simp]
theorem prepend_nil (scanned : Option (List Char × List Char)) : prepend [] scanned = scanned := by
  cases scanned <;> rfl

@[simp]
theorem prepend_prepend (unit more : List Char) (scanned : Option (List Char × List Char)) :
    prepend unit (prepend more scanned) = prepend (unit ++ more) scanned := by
  cases scanned <;> simp [prepend]

variable {left right c : Char} {level : Nat} {rest : List Char}

/-- The delimiter that closes the outermost pair ends the content. -/
theorem scanContent_right (plain : right ≠ '\\') :
    scanContent left right 0 false (right :: rest) = some ([], rest) := by
  cases rest <;> simp [scanContent, plain]

/-- Inside a quoted run of other delimiters, units are copied. -/
theorem scanContent_quoted_unit :
    scanContent left right level true ('\\' :: c :: rest) =
      prepend ['\\', c] (scanContent left right level true rest) := by
  simp [scanContent, prepend]

theorem scanContent_quoted_char (plain : c ≠ '\\') :
    scanContent left right level true (c :: rest) =
      prepend [c] (scanContent left right level (c ≠ '\'') rest) := by
  cases rest <;> simp [scanContent, plain, prepend]

/-- Between quotes as delimiters, an escaped quote loses its backslash. -/
theorem scanContent_escaped_quote :
    scanContent '\'' '\'' 0 false ('\\' :: '\'' :: rest) =
      prepend ['\''] (scanContent '\'' '\'' 0 false rest) := by
  simp [scanContent, prepend]

theorem scanContent_unit (plain : c ≠ '\'') :
    scanContent '\'' '\'' 0 false ('\\' :: c :: rest) =
      prepend ['\\', c] (scanContent '\'' '\'' 0 false rest) := by
  simp [scanContent, plain, prepend]

theorem scanContent_char (noBackslash : c ≠ '\\') (noQuote : c ≠ '\'') :
    scanContent '\'' '\'' 0 false (c :: rest) =
      prepend [c] (scanContent '\'' '\'' 0 false rest) := by
  cases rest <;> simp [scanContent, noBackslash, noQuote, prepend]

theorem escapeQuotes_cons_quote (rest : List Char) :
    escapeQuotes ('\'' :: rest) = '\\' :: '\'' :: escapeQuotes rest :=
  rfl

theorem escapeQuotes_cons (plain : c ≠ '\'') (rest : List Char) :
    escapeQuotes (c :: rest) = c :: escapeQuotes rest := by
  simp [escapeQuotes, plain]

theorem singleQuoted_of_not_mem {text : List Char} (plain : '\'' ∉ text) :
    singleQuoted text = '\'' :: text ++ ['\''] := by
  have kept : escapeQuotes text = text := by
    induction text with
    | nil => rfl
    | cons c rest ih =>
        obtain ⟨noQuote, later⟩ := not_or.mp (mt List.mem_cons.mpr plain)
        rw [escapeQuotes_cons (Ne.symm noQuote), ih later]
  rw [singleQuoted, kept]

/-- The quoted form of a text is scanned back to the text. -/
theorem scanPaired_singleQuoted {text : List Char} (quotable : Quotable text) (after : List Char) :
    scanPaired '\'' '\'' (singleQuoted text ++ after) = some (text, after) := by
  have scan : scanContent '\'' '\'' 0 false (escapeQuotes text ++ '\'' :: after) =
      some (text, after) := by
    refine quotable.induction ?_ (fun c rest noBackslash ih => ?_) fun c rest noQuote ih => ?_
    · exact scanContent_right (by decide)
    · by_cases quote : c = '\''
      · subst quote
        rw [escapeQuotes_cons_quote, List.cons_append, List.cons_append,
          scanContent_escaped_quote, ih, prepend_some]
        rfl
      · rw [escapeQuotes_cons quote, List.cons_append, scanContent_char noBackslash quote, ih,
          prepend_some]
        rfl
    · rw [escapeQuotes_cons (by decide), escapeQuotes_cons noQuote, List.cons_append,
        List.cons_append, scanContent_unit noQuote, ih, prepend_some]
      rfl
  simpa [singleQuoted, scanPaired] using scan

/-- Between other delimiters the quoted form of a text is copied. -/
theorem scanContent_quoted_escapeQuotes {text : List Char} (quotable : Quotable text)
    (after : List Char) :
    scanContent left right level true (escapeQuotes text ++ '\'' :: after) =
      prepend (escapeQuotes text ++ ['\'']) (scanContent left right level false after) := by
  refine quotable.induction ?_ (fun c rest noBackslash ih => ?_) fun c rest noQuote ih => ?_
  · simp [escapeQuotes, scanContent_quoted_char]
  · by_cases quote : c = '\''
    · subst quote
      rw [escapeQuotes_cons_quote, List.cons_append, List.cons_append,
        scanContent_quoted_unit, ih, prepend_prepend]
      rfl
    · rw [escapeQuotes_cons quote, List.cons_append, scanContent_quoted_char noBackslash,
        decide_eq_true quote, ih, prepend_prepend]
      rfl
  · rw [escapeQuotes_cons (by decide), escapeQuotes_cons noQuote, List.cons_append,
      List.cons_append, scanContent_quoted_unit, ih, prepend_prepend]
    rfl

/-! ## What stands between quotes -/

/-- Induction on the units of a text, which may end in a lone backslash. -/
@[elab_as_elim]
theorem unitInduction {motive : List Char → Prop} (nil : motive []) (lone : motive ['\\'])
    (unit : ∀ c rest, motive rest → motive ('\\' :: c :: rest))
    (char : ∀ c rest, c ≠ '\\' → motive rest → motive (c :: rest)) : ∀ text, motive text
  | [] => nil
  | [c] =>
      if backslash : c = '\\' then backslash ▸ lone else char c [] backslash nil
  | c :: d :: rest =>
      if backslash : c = '\\' then
        backslash ▸ unit d rest (unitInduction nil lone unit char rest)
      else char c (d :: rest) backslash (unitInduction nil lone unit char (d :: rest))

theorem prepend_eq_some_iff {unit content after : List Char}
    {scanned : Option (List Char × List Char)} :
    prepend unit scanned = some (content, after) ↔
      ∃ more, scanned = some (more, after) ∧ content = unit ++ more := by
  constructor
  · intro same
    obtain ⟨⟨more, _⟩, rfl, same⟩ := Option.map_eq_some_iff.mp same
    cases same
    exact ⟨more, rfl, rfl⟩
  · rintro ⟨more, rfl, rfl⟩
    rfl

/-- What is scanned between quotes is the text that was quoted. -/
theorem quoted_of_scanContent {text content after : List Char}
    (scanned : scanContent '\'' '\'' 0 false text = some (content, after)) :
    Quotable content ∧ text = escapeQuotes content ++ '\'' :: after := by
  induction text using unitInduction generalizing content with
  | nil => cases scanned
  | lone => cases scanned
  | unit c rest ih =>
      by_cases quote : c = '\''
      · subst quote
        rw [scanContent_escaped_quote, prepend_eq_some_iff] at scanned
        obtain ⟨inner, innerScanned, rfl⟩ := scanned
        obtain ⟨quotable, rfl⟩ := ih innerScanned
        exact ⟨quotable.cons (by decide), rfl⟩
      · rw [scanContent_unit quote, prepend_eq_some_iff] at scanned
        obtain ⟨inner, innerScanned, rfl⟩ := scanned
        obtain ⟨quotable, rfl⟩ := ih innerScanned
        refine ⟨quotable.unit quote, ?_⟩
        rw [List.cons_append, List.cons_append, List.nil_append, escapeQuotes_cons (by decide),
          escapeQuotes_cons quote]
        rfl
  | char c rest noBackslash ih =>
      by_cases quote : c = '\''
      · subst quote
        rw [scanContent_right (by decide)] at scanned
        cases scanned
        exact ⟨quotable_nil, rfl⟩
      · rw [scanContent_char noBackslash quote, prepend_eq_some_iff] at scanned
        obtain ⟨inner, innerScanned, rfl⟩ := scanned
        obtain ⟨quotable, rfl⟩ := ih innerScanned
        rw [List.singleton_append, escapeQuotes_cons quote]
        exact ⟨quotable.cons noBackslash, rfl⟩

/-- A quoted text that is scanned is the quoted form of its content. -/
theorem quoted_of_scanPaired {text content after : List Char}
    (scanned : scanPaired '\'' '\'' text = some (content, after)) :
    Quotable content ∧ text = singleQuoted content ++ after := by
  cases text with
  | nil => cases scanned
  | cons c text =>
      rw [scanPaired] at scanned
      split_ifs at scanned with quote
      subst quote
      obtain ⟨quotable, rfl⟩ := quoted_of_scanContent scanned
      exact ⟨quotable, by simp [singleQuoted]⟩

/-- A scan between other delimiters passes over a quoted text. -/
theorem quoted_of_scanContent_inside {text content after : List Char}
    (scanned : scanContent left right level true text = some (content, after)) :
    ∃ quoted rest, Quotable quoted ∧ text = escapeQuotes quoted ++ '\'' :: rest ∧
      ∃ more, scanContent left right level false rest = some (more, after) ∧
        content = escapeQuotes quoted ++ '\'' :: more := by
  induction text using unitInduction generalizing content with
  | nil => cases scanned
  | lone => cases scanned
  | unit c rest ih =>
      rw [scanContent_quoted_unit, prepend_eq_some_iff] at scanned
      obtain ⟨inner, innerScanned, rfl⟩ := scanned
      obtain ⟨quoted, rest, quotable, rfl, more, moreScanned, rfl⟩ := ih innerScanned
      by_cases quote : c = '\''
      · subst quote
        exact ⟨'\'' :: quoted, rest, quotable.cons (by decide), rfl, more, moreScanned, rfl⟩
      · refine ⟨'\\' :: c :: quoted, rest, quotable.unit quote, ?_, more, moreScanned, ?_⟩ <;>
          rw [escapeQuotes_cons (by decide), escapeQuotes_cons quote] <;> rfl
  | char c rest noBackslash ih =>
      rw [scanContent_quoted_char noBackslash, prepend_eq_some_iff] at scanned
      obtain ⟨inner, innerScanned, rfl⟩ := scanned
      by_cases quote : c = '\''
      · subst quote
        exact ⟨[], rest, quotable_nil, rfl, inner, innerScanned, rfl⟩
      · rw [decide_eq_true quote] at innerScanned
        obtain ⟨quoted, rest, quotable, rfl, more, moreScanned, rfl⟩ := ih innerScanned
        refine ⟨c :: quoted, rest, quotable.cons noBackslash, ?_, more, moreScanned, ?_⟩ <;>
          rw [escapeQuotes_cons quote] <;> rfl

/-! ## Shown literals -/

section

variable [RegexLibrary]

/-- The form in which a string literal is shown is scanned back to the string,
whatever stands behind it, for every content that a scan between quotes can have.
These contents are the texts in which no run of backslashes right before a quote or
at the end has odd length. -/
theorem shown_literal_scanned_back :
    (∀ input content rest, scanPaired '\'' '\'' input = some (content, rest) →
      ∀ tail, scanPaired '\'' '\'' ((Node.text (.ofList content)).render ++ tail) =
        some (content, tail)) ∧
    ∀ content, (∃ input rest, scanPaired '\'' '\'' input = some (content, rest)) ↔
      Quotable content := by
  refine ⟨fun input content rest scanned tail => ?_, fun content => ⟨?_, fun quotable => ?_⟩⟩
  · have quotable := (quoted_of_scanPaired scanned).1
    rw [Node.render, String.toList_ofList]
    exact scanPaired_singleQuoted quotable tail
  · rintro ⟨input, rest, scanned⟩
    exact (quoted_of_scanPaired scanned).1
  · exact ⟨_, [], scanPaired_singleQuoted quotable []⟩

end

attribute [local instance] RegexLibrary.empty

/-- A quote inside gets its backslash back, and two backslashes at the end stay two. -/
theorem escaped_quote_scanned_back :
    scanPaired '\'' '\'' ['\'', 'a', '\\', '\'', '\\', '\\', '\'', '+'] =
        some (['a', '\'', '\\', '\\'], ['+']) ∧
      (Node.text (.ofList ['a', '\'', '\\', '\\'])).render =
        ['\'', 'a', '\\', '\'', '\\', '\\', '\''] ∧
      scanPaired '\'' '\'' ((Node.text (.ofList ['a', '\'', '\\', '\\'])).render ++ ['\'']) =
        some (['a', '\'', '\\', '\\'], ['\'']) ∧
      Quotable ['a', '\'', '\\', '\\'] := by
  have scanned : scanPaired '\'' '\'' ['\'', 'a', '\\', '\'', '\\', '\\', '\'', '+'] =
      some (['a', '\'', '\\', '\\'], ['+']) := rfl
  refine ⟨scanned, rfl, shown_literal_scanned_back.1 _ _ _ scanned _, ?_⟩
  exact (shown_literal_scanned_back.2 _).mp ⟨_, _, scanned⟩

end FieldRules.Text
