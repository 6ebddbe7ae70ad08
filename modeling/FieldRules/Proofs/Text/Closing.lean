import FieldRules.Proofs.Text.SelfContained
import Mathlib.Algebra.Ring.Parity
import Mathlib.Data.List.DropRight

/-!
# Where a delimited text ends

Which delimiters of a text count can be said place by place, from what stands before
a place alone.  A character is escaped behind an odd run of backslashes.  Between two
different delimiters, quotes that are not escaped begin and end quoted runs in turn.
A delimiter is real when it is neither escaped nor in a quoted run, and the first
real right delimiter with as many real left as real right ones before it closes the
text.

Scanning, which keeps a level and reads a backslash together with the character
behind it, finds exactly this delimiter, and takes away exactly the backslashes of
escaped delimiters outside quoted runs.
-/

namespace FieldRules.Text

/-! ## Places -/

/-- A place of a text: a character with what stands before and behind it. -/
structure Place where
  before : List Char
  char : Char
  after : List Char

/-- The places of a text with another text in front of it. -/
def placesFrom (before : List Char) : List Char → List Place
  | [] => []
  | c :: after => ⟨before, c, after⟩ :: placesFrom (before ++ [c]) after

/-- The places of a text in order. -/
def places (text : List Char) : List Place :=
  placesFrom [] text

/-- The number of places where something holds of the character and of what stands
before it. -/
def countPlaces (holds : List Char → Char → Prop) [∀ before c, Decidable (holds before c)]
    (text : List Char) : Nat :=
  (places text).countP fun place => holds place.before place.char

variable {text more : List Char} {place : Place} {c : Char}

theorem mem_placesFrom_iff {before : List Char} : place ∈ placesFrom before text ↔
    ∃ first, text = first ++ place.char :: place.after ∧ place.before = before ++ first := by
  induction text generalizing before with
  | nil => simp [placesFrom]
  | cons d text ih =>
      rw [placesFrom, List.mem_cons, ih]
      constructor
      · rintro (rfl | ⟨first, rfl, same⟩)
        · exact ⟨[], rfl, (List.append_nil _).symm⟩
        · exact ⟨d :: first, rfl, by rw [same, List.append_assoc]; rfl⟩
      · rintro ⟨first, split, same⟩
        cases first with
        | nil =>
            obtain ⟨rfl, rfl⟩ := List.cons.inj split
            left
            rw [List.append_nil] at same
            rw [← same]
        | cons e first =>
            obtain ⟨rfl, rfl⟩ := List.cons.inj split
            exact .inr ⟨first, rfl, by rw [same, List.append_assoc]; rfl⟩

/-- The places of a text are the ways to part it at a character. -/
theorem mem_places_iff :
    place ∈ places text ↔ text = place.before ++ place.char :: place.after := by
  rw [places, mem_placesFrom_iff]
  constructor
  · rintro ⟨first, rfl, same⟩
    rw [same, List.nil_append]
  · intro split
    exact ⟨place.before, split, rfl⟩

/-- Text behind a place. -/
def Place.extend (place : Place) (more : List Char) : Place :=
  { place with after := place.after ++ more }

theorem placesFrom_append (before text more : List Char) :
    placesFrom before (text ++ more) =
      (placesFrom before text).map (Place.extend · more) ++ placesFrom (before ++ text) more := by
  induction text generalizing before with
  | nil => rw [List.nil_append, List.append_nil]; rfl
  | cons d text ih =>
      rw [List.cons_append, placesFrom, placesFrom, ih, List.append_assoc]
      rfl

theorem places_append (text more : List Char) :
    places (text ++ more) = (places text).map (Place.extend · more) ++ placesFrom text more :=
  placesFrom_append [] text more

section
variable {holds : List Char → Char → Prop} [∀ before c, Decidable (holds before c)]

@[simp]
theorem countPlaces_nil : countPlaces holds [] = 0 :=
  rfl

theorem countPlaces_concat (text : List Char) (c : Char) :
    countPlaces holds (text ++ [c]) = countPlaces holds text + if holds text c then 1 else 0 := by
  rw [countPlaces, places_append, List.countP_append, List.countP_map]
  simp [placesFrom, countPlaces, Function.comp_def, Place.extend]

end

/-! ## Real delimiters -/

/-- A character behind the text is escaped: the text ends in an odd run of
backslashes. -/
def Escapes (text : List Char) : Prop :=
  Odd (text.rtakeWhile (· = '\\')).length

instance : DecidablePred Escapes := fun _ => inferInstanceAs (Decidable (Odd _))

/-- The number of quotes that are not escaped. -/
def quoteCount (text : List Char) : Nat :=
  countPlaces (fun before c => c = '\'' ∧ ¬ Escapes before) text

/-- A quoted run is open at the end of a text between two different delimiters. -/
def InQuotes (left right : Char) (text : List Char) : Prop :=
  left ≠ right ∧ Odd (quoteCount text)

instance (left right : Char) : DecidablePred (InQuotes left right) :=
  fun _ => inferInstanceAs (Decidable (_ ∧ _))

/-- A delimiter behind the text counts. -/
def IsReal (left right : Char) (text : List Char) : Prop :=
  ¬ Escapes text ∧ ¬ InQuotes left right text

instance (left right : Char) : DecidablePred (IsReal left right) :=
  fun _ => inferInstanceAs (Decidable (_ ∧ _))

/-- The number of real left delimiters. -/
def leftCount (left right : Char) (text : List Char) : Nat :=
  countPlaces (fun before c => c = left ∧ IsReal left right before) text

/-- The number of real right delimiters. -/
def rightCount (left right : Char) (text : List Char) : Nat :=
  countPlaces (fun before c => c = right ∧ IsReal left right before) text

/-- A right delimiter behind the text closes it. -/
def Closes (left right : Char) (text : List Char) : Prop :=
  IsReal left right text ∧ leftCount left right text = rightCount left right text

/-- No right delimiter in the text closes what stands before it. -/
def StaysOpen (left right : Char) (text : List Char) : Prop :=
  ∀ place ∈ places text, place.char = right → ¬ Closes left right place.before

/-- The text between the delimiters and what follows, parted at the first right
delimiter that closes. -/
structure Cut (left right : Char) (input body rest : List Char) : Prop where
  split : input = left :: body ++ right :: rest
  staysOpen : StaysOpen left right body
  closes : Closes left right body

/-- The backslash of an escaped delimiter outside quoted runs. -/
def IsDropped (left right : Char) (place : Place) : Prop :=
  (place.after.head? = some left ∨ place.after.head? = some right) ∧
    Escapes (place.before ++ [place.char]) ∧ ¬ InQuotes left right (place.before ++ [place.char])

instance (left right : Char) : DecidablePred (IsDropped left right) :=
  fun _ => inferInstanceAs (Decidable (_ ∧ _))

/-- What is kept of a text with another text in front of it. -/
def keptFrom (left right : Char) (before text : List Char) : List Char :=
  ((placesFrom before text).filter fun place => ¬ IsDropped left right place).map Place.char

/-- A text without the backslashes of its escaped delimiters. -/
def kept (left right : Char) (text : List Char) : List Char :=
  keptFrom left right [] text

/-! ## One place further -/

variable {left right : Char} {level : Nat} {quoted : Bool}

theorem not_escapes_nil : ¬ Escapes [] := by decide

theorem escapes_concat_backslash : Escapes (text ++ ['\\']) ↔ ¬ Escapes text := by
  rw [Escapes, List.rtakeWhile_concat_pos _ _ _ rfl, List.length_append, Escapes,
    List.length_singleton, Nat.odd_add_one]

theorem not_escapes_concat (plain : c ≠ '\\') : ¬ Escapes (text ++ [c]) := by
  rw [Escapes, List.rtakeWhile_concat_neg _ _ _ (by simpa using plain)]
  decide

/-- A backslash that is not escaped has no effect behind the next character. -/
theorem not_escapes_unit (unescaped : ¬ Escapes text) (c : Char) :
    ¬ Escapes (text ++ ['\\', c]) := by
  have split : text ++ ['\\', c] = text ++ ['\\'] ++ [c] := by simp
  rw [split]
  by_cases backslash : c = '\\'
  · rw [backslash, escapes_concat_backslash, escapes_concat_backslash]
    exact not_not_intro unescaped
  · exact not_escapes_concat backslash

/-- Behind a backslash that is not escaped no character counts. -/
theorem countPlaces_unit {holds : List Char → Char → Prop}
    [∀ before c, Decidable (holds before c)] (backslash : ¬ holds text '\\')
    (escaped : ¬ holds (text ++ ['\\']) c) :
    countPlaces holds (text ++ ['\\', c]) = countPlaces holds text := by
  have split : text ++ ['\\', c] = text ++ ['\\'] ++ [c] := by simp
  rw [split, countPlaces_concat, countPlaces_concat, if_neg escaped, if_neg backslash]
  rfl

theorem quoteCount_unit (unescaped : ¬ Escapes text) (c : Char) :
    quoteCount (text ++ ['\\', c]) = quoteCount text := by
  have escaped : Escapes (text ++ ['\\']) := escapes_concat_backslash.mpr unescaped
  exact countPlaces_unit (by simp) (by simp [escaped])

theorem quoteCount_concat_quote (unescaped : ¬ Escapes text) :
    quoteCount (text ++ ['\'']) = quoteCount text + 1 := by
  rw [quoteCount, countPlaces_concat, if_pos ⟨rfl, unescaped⟩]
  rfl

theorem quoteCount_concat (noQuote : c ≠ '\'') :
    quoteCount (text ++ [c]) = quoteCount text := by
  rw [quoteCount, countPlaces_concat, if_neg (by simp [noQuote])]
  rfl

/-- A text behind which the scan has come: no backslash is left over, and level and
quotation are those of the scan. -/
structure Passed (left right : Char) (text : List Char) (level : Nat) (quoted : Bool) : Prop where
  unescaped : ¬ Escapes text
  quotes : InQuotes left right text ↔ quoted = true
  levels : leftCount left right text = rightCount left right text + level
  staysOpen : StaysOpen left right text

/-- What scans ask of their delimiters. -/
structure IsPair (left right : Char) : Prop where
  left_plain : left ≠ '\\'
  right_plain : right ≠ '\\'
  no_quotes : left ≠ right → left ≠ '\'' ∧ right ≠ '\''

theorem StaysOpen.append (first : StaysOpen left right text)
    (second : ∀ place ∈ placesFrom text more, place.char = right →
      ¬ Closes left right place.before) : StaysOpen left right (text ++ more) := by
  intro place mem
  rw [places_append, List.mem_append, List.mem_map] at mem
  rcases mem with ⟨old, inText, rfl⟩ | inMore
  · exact first old inText
  · exact second place inMore

theorem passed_nil (left right : Char) : Passed left right [] 0 false where
  unescaped := not_escapes_nil
  quotes := by simp [InQuotes, quoteCount]
  levels := rfl
  staysOpen := by simp [StaysOpen, places, placesFrom]

namespace Passed

variable (passed : Passed left right text level quoted)

include passed

/-- Behind a unit nothing has changed. -/
theorem unit (pair : IsPair left right) (c : Char) :
    Passed left right (text ++ ['\\', c]) level quoted := by
  have escaped : Escapes (text ++ ['\\']) := escapes_concat_backslash.mpr passed.unescaped
  have leftCount_eq : leftCount left right (text ++ ['\\', c]) = leftCount left right text :=
    countPlaces_unit (by simp [pair.left_plain.symm]) (by simp [IsReal, escaped])
  have rightCount_eq : rightCount left right (text ++ ['\\', c]) = rightCount left right text :=
    countPlaces_unit (by simp [pair.right_plain.symm]) (by simp [IsReal, escaped])
  refine ⟨not_escapes_unit passed.unescaped c, ?_, ?_, passed.staysOpen.append ?_⟩
  · rw [InQuotes, quoteCount_unit passed.unescaped]
    exact passed.quotes
  · rw [leftCount_eq, rightCount_eq, passed.levels]
  · intro place mem isRight
    simp only [placesFrom, List.mem_cons, List.not_mem_nil, or_false] at mem
    rcases mem with rfl | rfl
    · exact absurd isRight.symm pair.right_plain
    · exact fun closes => closes.1.1 escaped

/-- Behind another character, counts and quotation change as it says. -/
theorem char (plain : c ≠ '\\') {next : Nat} {nextQuoted : Bool}
    (open_here : c = right → ¬ Closes left right text)
    (quotes : InQuotes left right (text ++ [c]) ↔ nextQuoted = true)
    (levels : leftCount left right (text ++ [c]) = rightCount left right (text ++ [c]) + next) :
    Passed left right (text ++ [c]) next nextQuoted where
  unescaped := not_escapes_concat plain
  quotes
  levels
  staysOpen := passed.staysOpen.append fun place mem => by
    obtain rfl := List.mem_singleton.mp mem
    exact open_here

end Passed

/-! ## What the scan takes in -/

theorem inQuotes_concat_quote (distinct : left ≠ right) (unescaped : ¬ Escapes text) :
    InQuotes left right (text ++ ['\'']) ↔ ¬ InQuotes left right text := by
  rw [InQuotes, quoteCount_concat_quote unescaped, Nat.odd_add_one, InQuotes]
  tauto

theorem inQuotes_concat (noQuote : c ≠ '\'') :
    InQuotes left right (text ++ [c]) ↔ InQuotes left right text := by
  rw [InQuotes, quoteCount_concat noQuote, InQuotes]

/-- A unit of the text that the scan takes in at once, and its state behind it. -/
structure Takes (left right : Char) (text : List Char) (level : Nat) (quoted : Bool)
    (unit : List Char) (next : Nat) (nextQuoted : Bool) : Prop where
  nonempty : unit ≠ []
  passed : Passed left right (text ++ unit) next nextQuoted
  scan : ∀ more, scanContent left right level quoted (unit ++ more) =
    prepend (keptFrom left right text unit) (scanContent left right next nextQuoted more)

theorem keptFrom_cons (before : List Char) (c : Char) (text : List Char) :
    keptFrom left right before (c :: text) =
      (if IsDropped left right ⟨before, c, text⟩ then [] else [c]) ++
        keptFrom left right (before ++ [c]) text := by
  rw [keptFrom, placesFrom, List.filter_cons]
  split_ifs <;> simp_all [keptFrom]

@[simp]
theorem keptFrom_nil (before : List Char) : keptFrom left right before [] = [] :=
  rfl

/-- Nothing is dropped at the end of a text. -/
theorem not_isDropped_last : ¬ IsDropped left right ⟨text, c, []⟩ := by
  simp [IsDropped]

theorem keptFrom_singleton (text : List Char) (c : Char) :
    keptFrom left right text [c] = [c] := by
  rw [keptFrom_cons, if_neg not_isDropped_last, keptFrom_nil, List.append_nil]

namespace Passed

variable (passed : Passed left right text level quoted)

include passed

/-- The scan takes in a backslash with the character behind it, and drops the
backslash of a delimiter outside quoted runs. -/
theorem takes_unit (pair : IsPair left right) (c : Char) :
    Takes left right text level quoted ['\\', c] level quoted where
  nonempty := List.cons_ne_nil _ _
  passed := passed.unit pair c
  scan more := by
    have escaped : Escapes (text ++ ['\\']) := escapes_concat_backslash.mpr passed.unescaped
    have quotes : InQuotes left right (text ++ ['\\']) ↔ quoted = true :=
      (inQuotes_concat (by decide)).trans passed.quotes
    have dropped_iff : IsDropped left right ⟨text, '\\', [c]⟩ ↔
        quoted = false ∧ c ≠ '\\' ∧ (c = left ∨ c = right) := by
      have noBackslash : c = left ∨ c = right → c ≠ '\\' := by
        rintro (rfl | rfl)
        · exact pair.left_plain
        · exact pair.right_plain
      simp only [IsDropped, escaped, quotes, List.head?_cons, Option.some_inj]
      cases quoted with
      | true => simp
      | false => simpa using noBackslash
    rw [keptFrom_cons, keptFrom_singleton]
    by_cases dropped : IsDropped left right ⟨text, '\\', [c]⟩
    · obtain ⟨outside, plain, delimiter⟩ := dropped_iff.mp dropped
      simp [scanContent, prepend, dropped, outside, plain, delimiter]
    · have whole := mt dropped_iff.mpr dropped
      rw [if_neg dropped]
      simp only [scanContent, prepend, if_true, List.cons_append, List.nil_append]
      rw [if_neg (by simpa using whole)]
      rfl

/-- In a quoted run the scan takes in every other character as it stands, up to the
quote that ends the run. -/
theorem takes_quoted (inside : quoted = true) (plain : c ≠ '\\') :
    Takes left right text level quoted [c] level (c ≠ '\'') := by
  subst inside
  have inQuotes : InQuotes left right text := passed.quotes.mpr rfl
  have notReal : ¬ IsReal left right text := fun real => real.2 inQuotes
  refine ⟨List.cons_ne_nil _ _, passed.char plain (fun _ closes => notReal closes.1) ?_ ?_, ?_⟩
  · by_cases quote : c = '\''
    · subst quote
      simp [inQuotes_concat_quote inQuotes.1 passed.unescaped, inQuotes]
    · simp [inQuotes_concat quote, inQuotes, quote]
  · rw [leftCount, rightCount, countPlaces_concat, countPlaces_concat,
      if_neg (fun real => notReal real.2), if_neg (fun real => notReal real.2)]
    exact passed.levels
  · intro more
    rw [keptFrom_singleton]
    exact scanContent_quoted_char plain

variable (outside : quoted = false)

include outside

theorem isReal : IsReal left right text := by
  refine ⟨passed.unescaped, fun inside => ?_⟩
  rw [passed.quotes.mp inside] at outside
  cases outside

theorem leftCount_concat (c : Char) : leftCount left right (text ++ [c]) =
    leftCount left right text + if c = left then 1 else 0 := by
  simp only [leftCount, countPlaces_concat, passed.isReal outside, and_true]

theorem rightCount_concat (c : Char) : rightCount left right (text ++ [c]) =
    rightCount left right text + if c = right then 1 else 0 := by
  simp only [rightCount, countPlaces_concat, passed.isReal outside, and_true]

theorem closes_iff : Closes left right text ↔ level = 0 := by
  rw [Closes, passed.levels]
  constructor
  · rintro ⟨-, same⟩
    omega
  · rintro rfl
    exact ⟨passed.isReal outside, rfl⟩

/-- A real left delimiter opens a level. -/
theorem takes_left (pair : IsPair left right) (distinct : left ≠ right) :
    Takes left right text level quoted [left] (level + 1) false := by
  obtain ⟨leftQuote, -⟩ := pair.no_quotes distinct
  refine ⟨List.cons_ne_nil _ _,
    passed.char pair.left_plain (fun same => absurd same distinct) ?_ ?_, fun more => ?_⟩
  · rw [inQuotes_concat leftQuote, passed.quotes, outside]
  · rw [passed.leftCount_concat outside, passed.rightCount_concat outside, if_pos rfl,
      if_neg distinct, passed.levels]
    rfl
  · rw [keptFrom_singleton, outside]
    cases more <;> simp [scanContent, prepend, pair.left_plain, distinct, leftQuote]

/-- A real right delimiter closes a level that is open. -/
theorem takes_right (pair : IsPair left right) (distinct : left ≠ right) {lower : Nat}
    (inner : level = lower + 1) : Takes left right text level quoted [right] lower false := by
  obtain ⟨-, rightQuote⟩ := pair.no_quotes distinct
  refine ⟨List.cons_ne_nil _ _, passed.char pair.right_plain (fun _ => ?_) ?_ ?_, fun more => ?_⟩
  · rw [passed.closes_iff outside]
    omega
  · rw [inQuotes_concat rightQuote, passed.quotes, outside]
  · rw [passed.leftCount_concat outside, passed.rightCount_concat outside, if_pos rfl,
      if_neg distinct.symm, passed.levels]
    omega
  · rw [keptFrom_singleton, outside, inner]
    cases more <;>
      simp [scanContent, prepend, pair.right_plain, distinct, distinct.symm, rightQuote]

/-- A quote between two different delimiters opens a quoted run. -/
theorem takes_quote (pair : IsPair left right) (distinct : left ≠ right) :
    Takes left right text level quoted ['\''] level true := by
  obtain ⟨leftQuote, rightQuote⟩ := pair.no_quotes distinct
  refine ⟨List.cons_ne_nil _ _, passed.char (by decide) (fun same => absurd same.symm rightQuote) ?_
    ?_, fun more => ?_⟩
  · rw [inQuotes_concat_quote distinct passed.unescaped, passed.quotes, outside]
    decide
  · rw [passed.leftCount_concat outside, passed.rightCount_concat outside, if_neg leftQuote.symm,
      if_neg rightQuote.symm, passed.levels]
    rfl
  · rw [keptFrom_singleton, outside]
    cases more <;> simp [scanContent, prepend, distinct, leftQuote.symm, rightQuote.symm]

/-- Any other character is taken in as it stands. -/
theorem takes_other (plain : c ≠ '\\') (noLeft : c ≠ left) (noRight : c ≠ right)
    (noQuote : left ≠ right → c ≠ '\'') : Takes left right text level quoted [c] level false := by
  refine ⟨List.cons_ne_nil _ _, passed.char plain (fun same => absurd same noRight) ?_ ?_,
    fun more => ?_⟩
  · by_cases distinct : left = right
    · simp [InQuotes, distinct]
    · rw [inQuotes_concat (noQuote distinct), passed.quotes, outside]
  · rw [passed.leftCount_concat outside, passed.rightCount_concat outside, if_neg noLeft,
      if_neg noRight, passed.levels]
    rfl
  · rw [keptFrom_singleton, outside]
    by_cases distinct : left = right
    · cases more <;> simp [scanContent, prepend, plain, noRight, distinct]
    · cases more <;> simp [scanContent, prepend, plain, noLeft, noRight, noQuote distinct]

omit outside

/-- The scan is at the end of what can be scanned, or at the delimiter that closes,
or it takes something in. -/
theorem step (pair : IsPair left right) (rest : List Char) :
    ((rest = [] ∨ rest = ['\\']) ∧ scanContent left right level quoted rest = none) ∨
      (∃ after, rest = right :: after ∧ Closes left right text ∧
        scanContent left right level quoted rest = some ([], after)) ∨
      ∃ unit after next nextQuoted, rest = unit ++ after ∧
        Takes left right text level quoted unit next nextQuoted := by
  match rest with
  | [] => exact .inl ⟨.inl rfl, by rw [scanContent]⟩
  | c :: rest =>
      by_cases backslash : c = '\\'
      · subst backslash
        match rest with
        | [] => exact .inl ⟨.inr rfl, rfl⟩
        | c :: rest => exact .inr (.inr ⟨_, rest, _, _, rfl, passed.takes_unit pair c⟩)
      · by_cases inside : quoted = true
        · exact .inr (.inr ⟨[c], rest, _, _, rfl, passed.takes_quoted inside backslash⟩)
        have outside : quoted = false := Bool.eq_false_iff.mpr inside
        by_cases isRight : c = right
        · subst isRight
          cases level with
          | zero =>
              refine .inr (.inl ⟨rest, rfl, (passed.closes_iff outside).mpr rfl, ?_⟩)
              rw [outside]
              exact scanContent_right backslash
          | succ lower =>
              have distinct : left ≠ c := by
                rintro rfl
                have levels := passed.levels
                rw [leftCount, rightCount] at levels
                omega
              exact .inr (.inr ⟨[c], rest, _, _, rfl, passed.takes_right outside pair distinct rfl⟩)
        by_cases isLeft : c = left
        · subst isLeft
          exact .inr (.inr ⟨[c], rest, _, _, rfl, passed.takes_left outside pair isRight⟩)
        by_cases quotes : left ≠ right ∧ c = '\''
        · obtain ⟨distinct, rfl⟩ := quotes
          exact .inr (.inr ⟨_, rest, _, _, rfl, passed.takes_quote outside pair distinct⟩)
        · have plain := passed.takes_other outside backslash isLeft isRight
            fun distinct quote => quotes ⟨distinct, quote⟩
          exact .inr (.inr ⟨[c], rest, _, _, rfl, plain⟩)

end Passed

/-! ## Whole scans -/

/-- What is dropped of a text does not depend on what follows, unless it ends in a
backslash that is not escaped. -/
theorem keptFrom_append {before : List Char} (unescaped : ¬ Escapes (before ++ text))
    (more : List Char) : keptFrom left right before (text ++ more) =
      keptFrom left right before text ++ keptFrom left right (before ++ text) more := by
  induction text generalizing before with
  | nil => rw [List.nil_append, keptFrom_nil, List.append_nil, List.nil_append]
  | cons c text ih =>
      have split : before ++ c :: text = before ++ [c] ++ text := by simp
      have same : IsDropped left right ⟨before, c, text ++ more⟩ ↔
          IsDropped left right ⟨before, c, text⟩ := by
        cases text with
        | nil => exact iff_of_false (fun dropped => unescaped dropped.2.1) not_isDropped_last
        | cons d text => rfl
      rw [split] at unescaped ⊢
      rw [List.cons_append, keptFrom_cons, keptFrom_cons before c text, ih unescaped]
      simp only [same, List.append_assoc]

/-- The scan ends at the first right delimiter that closes, and nowhere if there is
none. -/
theorem Passed.scanned (pair : IsPair left right) (passed : Passed left right text level quoted)
    (rest : List Char) :
    (∃ more after, rest = more ++ right :: after ∧ StaysOpen left right (text ++ more) ∧
      Closes left right (text ++ more) ∧
      scanContent left right level quoted rest = some (keptFrom left right text more, after)) ∨
    (StaysOpen left right (text ++ rest) ∧ scanContent left right level quoted rest = none) := by
  induction size : rest.length using Nat.strongRecOn generalizing text level quoted rest with
  | _ bound ih =>
  rcases passed.step pair rest with
    ⟨rfl | rfl, scan⟩ | ⟨after, rfl, closes, scan⟩ | ⟨unit, after, next, nextQuoted, rfl, takes⟩
  · exact .inr ⟨by rw [List.append_nil]; exact passed.staysOpen, scan⟩
  · refine .inr ⟨passed.staysOpen.append fun place mem isRight => ?_, scan⟩
    obtain rfl := List.mem_singleton.mp mem
    exact absurd isRight.symm pair.right_plain
  · exact .inl ⟨[], after, rfl, by rw [List.append_nil]; exact passed.staysOpen,
      by rwa [List.append_nil], scan⟩
  · have shorter : after.length < bound := by
      have := List.length_pos_iff.mpr takes.nonempty
      rw [List.length_append] at size
      omega
    rw [takes.scan]
    rcases ih _ shorter takes.passed after rfl with
      ⟨more, rest, rfl, staysOpen, closes, scan⟩ | ⟨staysOpen, scan⟩
    · rw [List.append_assoc] at staysOpen closes
      refine .inl ⟨unit ++ more, rest, (List.append_assoc _ _ _).symm, staysOpen, closes, ?_⟩
      rw [scan, prepend_some, keptFrom_append takes.passed.unescaped]
    · rw [List.append_assoc] at staysOpen
      exact .inr ⟨staysOpen, by rw [scan]; rfl⟩

/-- Wherever the scan has come to, its level is the number of real left delimiters
without that of the real right ones. -/
theorem Passed.run (pair : IsPair left right) (passed : Passed left right text level quoted)
    (staysOpen : StaysOpen left right (text ++ more)) (unescaped : ¬ Escapes (text ++ more)) :
    ∃ next nextQuoted, Passed left right (text ++ more) next nextQuoted ∧
      ∀ rest, scanContent left right level quoted (more ++ rest) =
        prepend (keptFrom left right text more) (scanContent left right next nextQuoted rest) := by
  induction size : more.length using Nat.strongRecOn generalizing text level quoted more with
  | _ bound ih =>
  rcases passed.step pair more with
    ⟨rfl | rfl, scan⟩ | ⟨after, rfl, closes, scan⟩ | ⟨unit, after, next, nextQuoted, rfl, takes⟩
  · exact ⟨level, quoted, by rwa [List.append_nil], fun rest => (prepend_nil _).symm⟩
  · exact absurd (escapes_concat_backslash.mpr passed.unescaped) unescaped
  · exact absurd closes (staysOpen ⟨text, right, after⟩ (mem_places_iff.mpr rfl) rfl)
  · have shorter : after.length < bound := by
      have := List.length_pos_iff.mpr takes.nonempty
      rw [List.length_append] at size
      omega
    rw [← List.append_assoc] at staysOpen unescaped ⊢
    obtain ⟨last, lastQuoted, passed, scan⟩ := ih _ shorter takes.passed staysOpen unescaped rfl
    refine ⟨last, lastQuoted, passed, fun rest => ?_⟩
    rw [List.append_assoc, takes.scan, scan, prepend_prepend,
      keptFrom_append takes.passed.unescaped]

/-- A text is parted in one way at most. -/
theorem Cut.unique {input body other rest otherRest : List Char}
    (cut : Cut left right input body rest) (again : Cut left right input other otherRest) :
    body = other ∧ rest = otherRest := by
  have same : body ++ right :: rest = other ++ right :: otherRest :=
    (List.cons.inj (cut.split.symm.trans again.split)).2
  rcases List.append_eq_append_iff.mp same with ⟨gap, rfl, tail⟩ | ⟨gap, rfl, tail⟩
  · cases gap with
    | nil => simpa using tail
    | cons c gap =>
        obtain ⟨rfl, -⟩ := List.cons.inj tail
        exact absurd cut.closes (again.staysOpen ⟨body, right, gap⟩ (mem_places_iff.mpr rfl) rfl)
  · cases gap with
    | nil => simpa using tail.symm
    | cons c gap =>
        obtain ⟨rfl, -⟩ := List.cons.inj tail
        exact absurd again.closes (cut.staysOpen ⟨other, right, gap⟩ (mem_places_iff.mpr rfl) rfl)

/-- A text is scanned exactly if it can be parted at a right delimiter that closes. -/
theorem scanPaired_eq_some_iff (pair : IsPair left right) {input content rest : List Char} :
    scanPaired left right input = some (content, rest) ↔
      ∃ body, Cut left right input body rest ∧ content = kept left right body := by
  constructor
  · intro scan
    cases input with
    | nil => cases scan
    | cons c text =>
        rw [scanPaired] at scan
        split_ifs at scan with opens
        subst opens
        rcases (passed_nil c right).scanned pair text with
          ⟨body, after, rfl, staysOpen, closes, found⟩ | ⟨-, found⟩
        · obtain ⟨rfl, rfl⟩ := Prod.mk.inj (Option.some.inj (found.symm.trans scan))
          exact ⟨body, ⟨rfl, staysOpen, closes⟩, rfl⟩
        · cases found.symm.trans scan
  · rintro ⟨body, cut, rfl⟩
    obtain rfl := cut.split
    rw [List.cons_append, scanPaired, if_pos rfl]
    rcases (passed_nil left right).scanned pair (body ++ right :: rest) with
      ⟨other, after, same, staysOpen, closes, found⟩ | ⟨staysOpen, -⟩
    · obtain ⟨rfl, rfl⟩ := cut.unique ⟨congrArg (left :: ·) same, staysOpen, closes⟩
      exact found
    · exact absurd cut.closes (staysOpen ⟨body, right, rest⟩ (mem_places_iff.mpr rfl) rfl)

/-- Nothing is scanned of a text that starts otherwise or stays open up to its end. -/
theorem scanPaired_eq_none_iff (pair : IsPair left right) {input : List Char} :
    scanPaired left right input = none ↔
      input.head? ≠ some left ∨ ∃ text, input = left :: text ∧ StaysOpen left right text := by
  constructor
  · intro scan
    cases input with
    | nil => exact .inl (by simp)
    | cons c text =>
        rw [scanPaired] at scan
        split_ifs at scan with opens
        · subst opens
          rcases (passed_nil c right).scanned pair text with
            ⟨body, after, -, -, -, found⟩ | ⟨staysOpen, -⟩
          · cases found.symm.trans scan
          · exact .inr ⟨text, rfl, staysOpen⟩
        · exact .inl (by simpa using opens)
  · rintro (other | ⟨text, rfl, staysOpen⟩)
    · cases input with
      | nil => rfl
      | cons c text => rw [scanPaired, if_neg (by simpa using other)]
    · rw [scanPaired, if_pos rfl]
      rcases (passed_nil left right).scanned pair text with
        ⟨body, after, rfl, -, closes, -⟩ | ⟨-, found⟩
      · exact absurd closes (staysOpen ⟨body, right, after⟩ (mem_places_iff.mpr rfl) rfl)
      · exact found

/-- The delimiters of expressions and annotations: quotes and three kinds of
brackets. -/
def delimiters : List (Char × Char) :=
  ('\'', '\'') :: brackets

theorem isPair_of_mem {pair : Char × Char} (mem : pair ∈ delimiters) : IsPair pair.1 pair.2 := by
  have each : ∀ pair ∈ delimiters, pair.1 ≠ '\\' ∧ pair.2 ≠ '\\' ∧
      (pair.1 ≠ pair.2 → pair.1 ≠ '\'' ∧ pair.2 ≠ '\'') := by decide
  obtain ⟨left_plain, right_plain, no_quotes⟩ := each pair mem
  exact ⟨left_plain, right_plain, no_quotes⟩

/-- For each pair of delimiters, a text is scanned exactly if it starts with the left
one and some right one closes it.  The first of these ends the content, which is what
stands before it without the backslashes of escaped delimiters outside quoted runs,
and what follows it is left over.  Otherwise nothing is scanned: the text starts with
something else, or it stays open up to its end.

Behind everything that the scan passes over, no more right delimiters than left ones
have counted, and the level of the scan is the difference. -/
theorem scan_ends_at_closing_delimiter :
    ∀ pair ∈ delimiters, ∀ input : List Char,
      (∀ content rest, scanPaired pair.1 pair.2 input = some (content, rest) ↔
        ∃ body, Cut pair.1 pair.2 input body rest ∧ content = kept pair.1 pair.2 body) ∧
      (scanPaired pair.1 pair.2 input = none ↔
        input.head? ≠ some pair.1 ∨
          ∃ text, input = pair.1 :: text ∧ StaysOpen pair.1 pair.2 text) ∧
      ∀ text more, input = pair.1 :: text ++ more → StaysOpen pair.1 pair.2 text →
        ¬ Escapes text →
          rightCount pair.1 pair.2 text ≤ leftCount pair.1 pair.2 text ∧
          scanPaired pair.1 pair.2 input = prepend (kept pair.1 pair.2 text)
            (scanContent pair.1 pair.2
              (leftCount pair.1 pair.2 text - rightCount pair.1 pair.2 text)
              (decide (InQuotes pair.1 pair.2 text)) more) := by
  intro pair mem input
  have isPair := isPair_of_mem mem
  refine ⟨fun _ _ => scanPaired_eq_some_iff isPair, scanPaired_eq_none_iff isPair, ?_⟩
  rintro text more rfl staysOpen unescaped
  obtain ⟨level, quoted, passed, scan⟩ :=
    (passed_nil pair.1 pair.2).run isPair staysOpen unescaped
  have levels := passed.levels
  have quotes : decide (InQuotes pair.1 pair.2 text) = quoted :=
    Bool.eq_iff_iff.mpr (decide_eq_true_iff.trans passed.quotes)
  rw [List.nil_append] at levels
  refine ⟨Nat.le.intro levels.symm, ?_⟩
  rw [List.cons_append, scanPaired, if_pos rfl, scan more, levels, Nat.add_sub_cancel_left, quotes]
  rfl

/-- Behind a nested pair, a quoted right parenthesis and an escaped one, the last
parenthesis of `(a(b)\)')'c)d` closes it. -/
theorem nested_quoted_and_escaped_parentheses_passed :
    let body : List Char := ['a', '(', 'b', ')', '\\', ')', '\'', ')', '\'', 'c']
    let input : List Char := '(' :: body ++ [')', 'd']
    ('(', ')') ∈ delimiters ∧ Cut '(' ')' input body ['d'] ∧
      scanPaired '(' ')' input =
        some (['a', '(', 'b', ')', ')', '\'', ')', '\'', 'c'], ['d']) ∧
      rightCount '(' ')' ['a', '('] ≤ leftCount '(' ')' ['a', '('] ∧
      leftCount '(' ')' ['a', '('] = 1 := by
  intro body input
  have mem : ('(', ')') ∈ delimiters := by decide
  obtain ⟨scanned, -, levels⟩ := scan_ends_at_closing_delimiter _ mem input
  have scan : scanPaired '(' ')' input =
      some (['a', '(', 'b', ')', ')', '\'', ')', '\'', 'c'], ['d']) := rfl
  obtain ⟨found, cut, -⟩ := (scanned _ _).mp scan
  obtain rfl : body = found := List.append_cancel_right (List.cons.inj cut.split).2
  have staysOpen : StaysOpen '(' ')' ['a', '('] := by
    intro place mem isRight
    have plain : ∀ c ∈ ['a', '('], c ≠ ')' := by simp
    have inText := mem_places_iff.mp mem
    exact absurd isRight (plain _ (inText ▸ by simp))
  exact ⟨mem, cut, scan, (levels ['a', '('] _ rfl staysOpen (by decide)).1, by decide⟩

end FieldRules.Text
