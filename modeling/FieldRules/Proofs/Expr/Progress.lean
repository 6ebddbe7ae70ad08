import FieldRules.Proofs.Expr.Portability

/-!
# Reading makes progress

A reader that takes an operand takes at least one character of it, and one that does not
apply leaves the text to the next.  The texts that are read on their own are shorter than
the brackets they were cut from, although escapes are undone and blanks trimmed on the
way.  So reading ends: no bound on the number of links, on the number of subscripts or on
the depth of nesting ever cuts it short, and the reader of expressions is the only one
that agrees with its own recursion.
-/

namespace FieldRules.Expr

open FieldRules.Text

variable {text after : List Char}

/-! ## Taking something off the front -/

/-- A text with something in front of what is left of it. -/
def Leaves (text after : List Char) : Prop :=
  ∃ taken, taken ≠ [] ∧ text = taken ++ after

theorem Leaves.shorter (leaves : Leaves text after) : after.length < text.length := by
  obtain ⟨taken, some, rfl⟩ := leaves
  have := List.length_pos_iff.mpr some
  rw [List.length_append]
  omega

theorem Leaves.suffix (leaves : Leaves text after) : after <:+ text := by
  obtain ⟨taken, -, split⟩ := leaves
  exact ⟨taken, split.symm⟩

/-- More may have been taken in front. -/
theorem Leaves.append (before : List Char) (leaves : Leaves text after) :
    Leaves (before ++ text) after := by
  obtain ⟨taken, some, rfl⟩ := leaves
  exact ⟨before ++ taken, by simp [some], (List.append_assoc ..).symm⟩

theorem Leaves.of_cons (c : Char) (taken after : List Char) : Leaves (c :: taken ++ after) after :=
  ⟨c :: taken, List.cons_ne_nil _ _, rfl⟩

theorem Leaves.of_bangs (leaves : Leaves (readBangs text).2 after) : Leaves text after := by
  rw [← replicate_append_readBangs text]
  exact leaves.append _

/-! ## Texts that are read on their own -/

/-- What is read on its own was cut from a text in brackets: it is the whole content, or
one piece of it. -/
inductive CutFrom : (bracketed inside : List Char) → Prop
  | content (bracket : Bracket) {raw content : List Char}
      (cut : Encloses bracket.left bracket.right raw content) :
      CutFrom (bracket.left :: raw ++ [bracket.right]) content
  | piece (bracket : Bracket) {raw content piece : List Char}
      (cut : Encloses bracket.left bracket.right raw content) (mem : piece ∈ pieces content) :
      CutFrom (bracket.left :: raw ++ [bracket.right]) piece

/-- What is scanned stands in brackets, and the scan does not depend on what follows. -/
theorem exists_encloses (bracket : Bracket) {content : List Char}
    (scanned : scanPaired bracket.left bracket.right text = some (content, after)) :
    ∃ raw, text = bracket.left :: raw ++ bracket.right :: after ∧
      Encloses bracket.left bracket.right raw content := by
  obtain ⟨raw, wellFormed, balanced, rfl, rfl⟩ := signs_of_scanPaired bracket scanned
  exact ⟨spell raw, rfl, scanPaired_spell wellFormed balanced⟩

theorem leaves_of_scanPaired (bracket : Bracket) {content : List Char}
    (scanned : scanPaired bracket.left bracket.right text = some (content, after)) :
    Leaves text after := by
  obtain ⟨raw, rfl, -⟩ := exists_encloses bracket scanned
  exact ⟨bracket.left :: raw ++ [bracket.right], by simp, by simp⟩

/-- Undoing escapes makes no content longer. -/
theorem length_le_of_encloses (bracket : Bracket) {raw content : List Char}
    (cut : Encloses bracket.left bracket.right raw content) : content.length ≤ raw.length := by
  obtain ⟨signs, -, -, split, rfl⟩ := signs_of_scanPaired bracket (cut [])
  obtain rfl : raw = spell signs := List.append_cancel_right (List.cons.inj split).2
  exact length_spell_unescape_le _ _

theorem length_le_of_mem_intercalate {slice : List Char} {slices : List (List Char)}
    (mem : slice ∈ slices) : slice.length ≤ ([','].intercalate slices).length := by
  induction slices with
  | nil => cases mem
  | cons first slices ih =>
      cases slices with
      | nil =>
          obtain rfl := List.mem_singleton.mp mem
          simp
      | cons next slices =>
          rw [List.intercalate_cons_cons, List.length_append, List.length_append]
          rcases List.mem_cons.mp mem with rfl | mem
          · omega
          · have := ih mem
            omega

theorem length_trim_le (text : List Char) : (trim text).length ≤ text.length := by
  have fewer : (trimStart text).length ≤ text.length := (List.dropWhile_suffix _).length_le
  have fewest : (trim text).length ≤ (trimStart text).length :=
    (List.rdropWhile_prefix isBlank _).length_le
  omega

theorem length_le_of_mem_pieces {piece content : List Char} (mem : piece ∈ pieces content) :
    piece.length ≤ content.length := by
  rw [pieces] at mem
  split_ifs at mem
  · cases mem
  · obtain ⟨slice, inSlices, rfl⟩ := List.mem_map.mp mem
    have fewer := length_le_of_mem_intercalate inSlices
    rw [intercalate_slices] at fewer
    exact (length_trim_le slice).trans fewer

/-- What is read on its own is shorter than the text in brackets it was cut from. -/
theorem CutFrom.shorter {bracketed inside : List Char} (cut : CutFrom bracketed inside) :
    inside.length < bracketed.length := by
  cases cut with
  | content bracket cut =>
      have := length_le_of_encloses bracket cut
      simp only [List.cons_append, List.length_cons, List.length_append]
      omega
  | piece bracket cut mem =>
      have := length_le_of_encloses bracket cut
      have := length_le_of_mem_pieces mem
      simp only [List.cons_append, List.length_cons, List.length_append]
      omega

/-- A text that is cut from brackets which stand somewhere in another. -/
def InsideOf (inside text : List Char) : Prop :=
  ∃ bracketed, bracketed <:+: text ∧ CutFrom bracketed inside

theorem InsideOf.shorter {inside : List Char} (insideOf : InsideOf inside text) :
    inside.length < text.length := by
  obtain ⟨bracketed, inText, cut⟩ := insideOf
  exact cut.shorter.trans_le inText.length_le

/-- Going from a text to what its brackets hold comes to an end. -/
theorem wellFounded_insideOf : WellFounded InsideOf :=
  Subrelation.wf InsideOf.shorter (measure List.length).wf

variable [RegexLibrary]

variable {registry : Registry} {expression other : ExpressionReader} {node : Node}

/-- Two readers of expressions read alike whatever the brackets of a text hold. -/
def AgreeInside (expression other : ExpressionReader) (text : List Char) : Prop :=
  ∀ inside, InsideOf inside text → expression inside = other inside

theorem AgreeInside.of_infix (agree : AgreeInside expression other text) {part : List Char}
    (inText : part <:+: text) : AgreeInside expression other part := by
  rintro inside ⟨bracketed, inPart, cut⟩
  exact agree inside ⟨bracketed, inPart.trans inText, cut⟩

/-- Readers that agree inside brackets agree on what is scanned, and on its pieces. -/
theorem AgreeInside.scanned (agree : AgreeInside expression other text) (bracket : Bracket)
    {content : List Char}
    (scanned : scanPaired bracket.left bracket.right text = some (content, after)) :
    expression content = other content ∧
      ∀ piece ∈ pieces content, expression piece = other piece := by
  obtain ⟨raw, rfl, cut⟩ := exists_encloses bracket scanned
  have inText : bracket.left :: raw ++ [bracket.right] <:+:
      bracket.left :: raw ++ bracket.right :: after := ⟨[], after, by simp⟩
  exact ⟨agree _ ⟨_, inText, .content bracket cut⟩,
    fun _ mem => agree _ ⟨_, inText, .piece bracket cut mem⟩⟩

/-! ## The seven readers -/

theorem leaves_of_readGroup (read : readGroup expression text = .ok (some (node, after))) :
    Leaves text after := by
  simp only [readGroup] at read
  split at read
  · cases read
  · rename_i content rest scanned
    split_ifs at read
    · cases read
    · obtain ⟨inner, -, same⟩ := bind_eq_ok_iff.mp read
      cases same
      exact (leaves_of_scanPaired .round scanned).of_bangs

theorem leaves_of_readCall (read : readCall registry expression text = .ok (some (node, after))) :
    Leaves text after := by
  simp only [readCall] at read
  split at read
  · cases read
  · rename_i name rest nameRead
    split_ifs at read
    · cases read
    · split at read
      · cases read
      · rename_i content behind scanned
        split_ifs at read
        obtain ⟨called, -, same⟩ := bind_eq_ok_iff.mp read
        cases same
        refine Leaves.of_bangs ?_
        rw [(eq_append_of_readIdentifier nameRead).2]
        exact (leaves_of_scanPaired .round scanned).append name

theorem leaves_of_readText (read : readText text = some (node, after)) : Leaves text after := by
  obtain ⟨⟨content, behind⟩, scanned, same⟩ := Option.map_eq_some_iff.mp read
  cases same
  obtain ⟨-, rfl⟩ := quoted_of_scanPaired scanned
  exact .of_cons _ _ _

theorem leaves_of_readNumber (read : readNumber text = some (node, after)) : Leaves text after := by
  rw [readNumber] at read
  split at read
  · rename_i numeral behind literalRead
    split_ifs at read
    cases read
    obtain ⟨literal, rfl, -⟩ := Number.exists_literal literalRead
    obtain ⟨c, rest, shape, -⟩ := literal.exists_head
    exact shape ▸ .of_cons _ _ _
  · cases read

omit [RegexLibrary] in
theorem leaves_of_readKeyword {c : Char} {word : List Char}
    (read : readKeyword (c :: word) text = some after) : Leaves text after :=
  eq_append_of_readKeyword read ▸ .of_cons _ _ _

theorem leaves_of_readBool (read : readBool text = some (node, after)) : Leaves text after := by
  simp only [readBool] at read
  refine Leaves.of_bangs ?_
  split at read
  · rename_i behind wordRead
    cases read
    exact leaves_of_readKeyword wordRead
  · split at read
    · rename_i behind wordRead
      cases read
      exact leaves_of_readKeyword wordRead
    · cases read

theorem leaves_of_readNil (read : readNil text = some (node, after)) : Leaves text after := by
  obtain ⟨behind, wordRead, same⟩ := Option.map_eq_some_iff.mp read
  cases same
  exact leaves_of_readKeyword wordRead

/-- Subscripts are taken off the front, if there are any. -/
theorem suffix_of_readSubscripts {steps : Nat} {subscripts : List Node}
    (read : readSubscripts expression steps text = .ok (some (subscripts, after))) :
    after <:+ text := by
  induction steps generalizing text subscripts with
  | zero =>
      cases read
      exact List.suffix_rfl
  | succ steps ih =>
      rw [readSubscripts] at read
      split_ifs at read
      · cases read
        exact List.suffix_rfl
      · split at read
        · cases read
        · rename_i content rest scanned
          split_ifs at read
          · cases read
          · obtain ⟨first, -, read⟩ := bind_eq_ok_iff.mp read
            obtain ⟨taken, restRead, read⟩ := bind_eq_ok_iff.mp read
            split at read
            · cases read
            · cases read
              exact (ih restRead).trans (leaves_of_scanPaired .square scanned).suffix

omit [RegexLibrary] in
theorem leaves_of_readOrigin {origin : Origin} (read : readOrigin text = some (origin, after)) :
    Leaves text after := by
  obtain ⟨head, start, rfl, -⟩ := exists_selectorHead read
  obtain ⟨c, rest, rfl, -⟩ := start.exists_head
  exact .of_cons _ _ _

theorem leaves_of_readSelector (read : readSelector expression text = .ok (some (node, after))) :
    Leaves text after := by
  rw [readSelector] at read
  split at read
  · cases read
  · rename_i origin rest originRead
    obtain ⟨taken, subscriptsRead, read⟩ := bind_eq_ok_iff.mp read
    split at read
    · cases read
    · split_ifs at read
      · cases read
        obtain ⟨before, some, rfl⟩ := leaves_of_readOrigin originRead
        obtain ⟨subscripts, rfl⟩ := suffix_of_readSubscripts subscriptsRead
        exact ⟨before ++ subscripts, by simp [some], (List.append_assoc ..).symm⟩
      · cases read

theorem leaves_of_mem_operandReaders {reader : List Char → Reading (Taken Node)}
    (mem : reader ∈ operandReaders registry expression)
    (read : reader text = .ok (some (node, after))) : Leaves text after := by
  simp only [operandReaders, List.mem_cons, List.not_mem_nil, or_false] at mem
  rcases mem with rfl | rfl | rfl | rfl | rfl | rfl | rfl
  · exact leaves_of_readGroup read
  · exact leaves_of_readCall read
  · exact leaves_of_readText (Except.ok.inj read)
  · exact leaves_of_readNumber (Except.ok.inj read)
  · exact leaves_of_readBool (Except.ok.inj read)
  · exact leaves_of_readNil (Except.ok.inj read)
  · exact leaves_of_readSelector read

/-! ## The first reader that applies -/

/-- An operand is taken by the first reader that applies, off the text that all readers
before it leave as it is. -/
theorem readFirst_eq_ok_iff {readers : List (List Char → Reading (Taken Node))}
    {operand : Node × List Char} :
    readFirst text readers = .ok operand ↔
      ∃ before reader later, readers = before ++ reader :: later ∧
        (∀ earlier ∈ before, earlier text = .ok none) ∧ reader text = .ok (some operand) := by
  constructor
  · intro read
    induction readers with
    | nil => cases read
    | cons reader readers ih =>
        rw [readFirst] at read
        obtain ⟨taken, first, read⟩ := bind_eq_ok_iff.mp read
        cases taken with
        | some operand =>
            cases read
            exact ⟨[], reader, readers, rfl, List.forall_mem_nil _, first⟩
        | none =>
            obtain ⟨before, taker, later, rfl, declined, taken⟩ := ih read
            exact ⟨reader :: before, taker, later, rfl,
              List.forall_mem_cons.mpr ⟨first, declined⟩, taken⟩
  · rintro ⟨before, reader, later, rfl, declined, taken⟩
    induction before with
    | nil => exact readFirst_taken taken
    | cons earlier before ih =>
        obtain ⟨first, declined⟩ := List.forall_mem_cons.mp declined
        rw [List.cons_append, readFirst_declined first]
        exact ih declined

theorem leaves_of_readOperand (read : readOperand registry expression text = .ok (node, after)) :
    Leaves text after :=
  readFirst_sound (fun _ => Leaves text) (fun _ mem _ _ => leaves_of_mem_operandReaders mem) read

/-! ## Readers that agree inside brackets -/

theorem readGroup_congr (agree : AgreeInside expression other text) :
    readGroup expression text = readGroup other text := by
  have behindBangs : (readBangs text).2 <:+: text :=
    (List.dropWhile_suffix _).isInfix
  simp only [readGroup]
  split
  · rfl
  · rename_i content after scanned
    rw [((agree.of_infix behindBangs).scanned .round scanned).1]

theorem readAll_congr {arguments : List (List Char)}
    (agree : ∀ argument ∈ arguments, expression argument = other argument) :
    readAll expression arguments = readAll other arguments := by
  induction arguments with
  | nil => rfl
  | cons argument arguments ih =>
      obtain ⟨first, later⟩ := List.forall_mem_cons.mp agree
      rw [readAll, readAll, first, ih later]

theorem readAllOrCurrent_congr {arguments : List (List Char)}
    (agree : ∀ argument ∈ arguments, expression argument = other argument) :
    readAllOrCurrent expression arguments = readAllOrCurrent other arguments := by
  rw [readAllOrCurrent, readAllOrCurrent, readAll_congr agree]

theorem readCallOf_congr {arguments : List (List Char)}
    (agree : ∀ argument ∈ arguments, expression argument = other argument) (name : String) :
    readCallOf registry expression name arguments = readCallOf registry other name arguments := by
  have behindFirst : ∀ argument ∈ arguments.tail, expression argument = other argument :=
    fun argument mem => agree argument (List.mem_of_mem_tail mem)
  simp only [readCallOf, readAll_congr agree, readAllOrCurrent_congr agree,
    readAllOrCurrent_congr behindFirst]

theorem readCall_congr (agree : AgreeInside expression other text) :
    readCall registry expression text = readCall registry other text := by
  simp only [readCall]
  split
  · rfl
  · rename_i name rest nameRead
    have behindName : rest <:+: text := by
      have behindBangs : (readBangs text).2 <:+ text := List.dropWhile_suffix _
      rw [(eq_append_of_readIdentifier nameRead).2] at behindBangs
      exact ((List.suffix_append name rest).trans behindBangs).isInfix
    split_ifs
    · rfl
    · split
      · rfl
      · rename_i content after scanned
        rw [readCallOf_congr ((agree.of_infix behindName).scanned .round scanned).2]

/-- Subscripts are read alike with any bounds that are not less than the text is long. -/
theorem readSubscripts_congr {steps more : Nat} (enough : text.length ≤ steps)
    (enoughMore : text.length ≤ more) (agree : AgreeInside expression other text) :
    readSubscripts expression steps text = readSubscripts other more text := by
  induction steps generalizing text more with
  | zero =>
      obtain rfl := List.length_eq_zero_iff.mp (Nat.le_zero.mp enough)
      cases more <;> rfl
  | succ steps ih =>
      cases more with
      | zero =>
          obtain rfl := List.length_eq_zero_iff.mp (Nat.le_zero.mp enoughMore)
          rfl
      | succ more =>
          rw [readSubscripts, readSubscripts]
          split_ifs
          · rfl
          · split
            · rfl
            · rename_i content after scanned
              have leaves := leaves_of_scanPaired .square scanned
              have shorter := leaves.shorter
              have later := ih (by omega) (by omega : after.length ≤ more)
                (agree.of_infix leaves.suffix.isInfix)
              rw [(agree.scanned .square scanned).1, later]

theorem readSelector_congr (agree : AgreeInside expression other text) :
    readSelector expression text = readSelector other text := by
  rw [readSelector, readSelector]
  split
  · rfl
  · rename_i origin rest originRead
    have behindOrigin : rest <:+: text := (leaves_of_readOrigin originRead).suffix.isInfix
    rw [readSubscripts_congr (Nat.le_refl _) (Nat.le_refl _) (agree.of_infix behindOrigin)]

theorem operandReaders_congr (agree : AgreeInside expression other text) :
    (operandReaders registry expression).map (· text) =
      (operandReaders registry other).map (· text) := by
  simp only [operandReaders, List.map_cons, readGroup_congr agree, readCall_congr agree,
    readSelector_congr agree]

theorem readFirst_congr {readers others : List (List Char → Reading (Taken Node))}
    (same : readers.map (· text) = others.map (· text)) :
    readFirst text readers = readFirst text others := by
  induction readers generalizing others with
  | nil =>
      obtain rfl := List.map_eq_nil_iff.mp same.symm
      rfl
  | cons reader readers ih =>
      cases others with
      | nil => cases same
      | cons other others =>
          obtain ⟨first, later⟩ := List.cons.inj same
          have first : reader text = other text := first
          rw [readFirst, readFirst, first, ih later]

theorem readOperand_congr (agree : AgreeInside expression other text) :
    readOperand registry expression text = readOperand registry other text :=
  readFirst_congr (operandReaders_congr agree)

/-! ## Chains -/

/-- Links are read alike with any bounds that exceed the length of the text. -/
theorem readLinks_congr {steps more : Nat} (enough : text.length < steps)
    (enoughMore : text.length < more) (agree : AgreeInside expression other text) :
    readLinks (readOperand registry expression) steps text =
      readLinks (readOperand registry other) more text := by
  induction steps generalizing text more with
  | zero => exact absurd enough (Nat.not_lt_zero _)
  | succ steps ih =>
      obtain ⟨more, rfl⟩ : ∃ fewer, more = fewer + 1 := ⟨more - 1, by omega⟩
      rw [readLinks, readLinks]
      split
      · rfl
      · rename_i start shown
        split
        · rfl
        · rename_i operator rest operatorRead
          split
          · rfl
          · have inText : skipLayout rest <:+ text := by
              have behindLayout : skipLayout text <:+ text := List.dropWhile_suffix _
              rw [eq_append_of_readOperator operatorRead] at behindLayout
              exact (List.dropWhile_suffix _).trans
                ((List.suffix_append _ _).trans behindLayout)
            rw [readOperand_congr (agree.of_infix inText.isInfix)]
            cases rightRead : readOperand registry other (skipLayout rest) with
            | error fault => rfl
            | ok taken =>
                obtain ⟨right, after⟩ := taken
                have leaves := leaves_of_readOperand rightRead
                have shorter := leaves.shorter.trans_le inText.length_le
                have later := ih (by omega) (by omega : after.length < more)
                  (agree.of_infix (leaves.suffix.trans inText).isInfix)
                simp only [bind_ok, later]

theorem readChain_congr (agree : AgreeInside expression other text) :
    readChain (readOperand registry expression) text =
      readChain (readOperand registry other) text := by
  rw [readChain, readChain]
  split
  · rfl
  · have inText : skipLayout text <:+ text := List.dropWhile_suffix _
    rw [readOperand_congr (agree.of_infix inText.isInfix)]
    cases firstRead : readOperand registry other (skipLayout text) with
    | error fault => rfl
    | ok taken =>
        obtain ⟨first, rest⟩ := taken
        have behindFirst := ((leaves_of_readOperand firstRead).suffix.trans inText).isInfix
        have later : readLinks (readOperand registry expression) (rest.length + 1) rest =
            readLinks (readOperand registry other) (rest.length + 1) rest :=
          readLinks_congr (Nat.lt_succ_self _) (Nat.lt_succ_self _) (agree.of_infix behindFirst)
        simp only [bind_ok, later]

/-! ## Whole expressions -/

/-- A reader of expressions reads the texts inside brackets by itself. -/
def Recurs (registry : Registry) (expression : ExpressionReader) : Prop :=
  ∀ text, expression text = do
    let chain ← readChain (readOperand registry expression) text
    .ok chain.tree

/-- An expression is read alike at any depth that exceeds the length of the text. -/
theorem readNode_congr {depth more : Nat} (enough : text.length < depth)
    (enoughMore : text.length < more) :
    readNode registry depth text = readNode registry more text := by
  induction depth generalizing text more with
  | zero => exact absurd enough (Nat.not_lt_zero _)
  | succ depth ih =>
      obtain ⟨more, rfl⟩ : ∃ fewer, more = fewer + 1 := ⟨more - 1, by omega⟩
      have agree : AgreeInside (readNode registry depth) (readNode registry more) text :=
        fun inside insideOf => by
          have := insideOf.shorter
          exact ih (by omega) (by omega)
      rw [readNode, readNode, readChain_congr agree]

theorem recurs_ofText (registry : Registry) : Recurs registry (Node.ofText registry) := by
  intro text
  have agree : AgreeInside (readNode registry text.length) (Node.ofText registry) text :=
    fun inside insideOf => readNode_congr insideOf.shorter (Nat.lt_succ_self _)
  rw [Node.ofText, readNode, readChain_congr agree]

/-- What recurs on shorter texts is determined by its recursion. -/
theorem Recurs.eq_readNode (recurs : Recurs registry expression) {depth : Nat}
    (enough : text.length < depth) : expression text = readNode registry depth text := by
  induction depth generalizing text with
  | zero => exact absurd enough (Nat.not_lt_zero _)
  | succ depth ih =>
      have agree : AgreeInside expression (readNode registry depth) text :=
        fun inside insideOf => by
          have := insideOf.shorter
          exact ih (by omega)
      rw [recurs text, readNode, readChain_congr agree]

theorem recurs_iff : Recurs registry expression ↔ expression = Node.ofText registry := by
  constructor
  · intro recurs
    exact funext fun text => recurs.eq_readNode (Nat.lt_succ_self _)
  · rintro rfl
    exact recurs_ofText registry

/-- Each of the seven readers takes something off the front of a text and leaves the
rest, unless it fails or does not apply; then the text goes on to the next reader as it
is.  Whatever is read on its own is shorter than the text in brackets it was cut from, and
the readers depend on the reading of such texts alone, so that the recursion through them
is well-founded.  Hence reading ends on every text: neither the bound on the links of a
chain nor that on subscripts is ever reached, and the reader of expressions, bounded in
depth as it is, is the one reader that recurs without a bound. -/
theorem operand_reading_progresses_and_ends (registry : Registry) :
    (∀ expression text, ∀ reader ∈ operandReaders registry expression, ∀ node after,
      reader text = .ok (some (node, after)) → Leaves text after) ∧
    (∀ expression text operand, readOperand registry expression text = .ok operand ↔
      ∃ before reader later, operandReaders registry expression = before ++ reader :: later ∧
        (∀ earlier ∈ before, earlier text = .ok none) ∧ reader text = .ok (some operand)) ∧
    (∀ bracketed inside, CutFrom bracketed inside → inside.length < bracketed.length) ∧
    (∀ expression other text, AgreeInside expression other text →
      (operandReaders registry expression).map (· text) =
        (operandReaders registry other).map (· text)) ∧
    WellFounded InsideOf ∧
    (∀ expression text steps, text.length < steps →
      readLinks (readOperand registry expression) steps text =
        readLinks (readOperand registry expression) (text.length + 1) text) ∧
    (∀ expression text steps, text.length ≤ steps →
      readSubscripts expression steps text = readSubscripts expression text.length text) ∧
    ∀ expression, Recurs registry expression ↔ expression = Node.ofText registry :=
  ⟨fun _ _ _ mem _ _ => leaves_of_mem_operandReaders mem,
    fun _ _ _ => readFirst_eq_ok_iff,
    fun _ _ => CutFrom.shorter,
    fun _ _ _ => operandReaders_congr,
    wellFounded_insideOf,
    fun _ _ _ enough => readLinks_congr enough (Nat.lt_succ_self _) fun _ _ => rfl,
    fun _ _ _ enough => readSubscripts_congr enough (Nat.le_refl _) fun _ _ => rfl,
    fun _ => recurs_iff⟩

end FieldRules.Expr

namespace FieldRules.Expr

open FieldRules.Text

attribute [local instance] RegexLibrary.empty

/-- Of `('x)')+1` the group is taken; its content `'x)'` is read on its own, and a reader
of expressions of bounded depth is enough for that. -/
theorem group_taken_with_quoted_parenthesis :
    let quoted : List Char := ['\'', 'x', ')', '\'']
    let text : List Char := '(' :: quoted ++ ')' :: ['+', '1']
    readGroup (Node.ofText .empty) text =
        .ok (some (.group false (.text "x)"), ['+', '1'])) ∧
      Leaves text ['+', '1'] ∧
      CutFrom ('(' :: quoted ++ [')']) quoted ∧
      quoted.length < ('(' :: quoted ++ [')']).length ∧
      AgreeInside (Node.ofText .empty) (readNode .empty text.length) text ∧
      (operandReaders .empty (Node.ofText .empty)).map (· text) =
        (operandReaders .empty (readNode .empty text.length)).map (· text) ∧
      readLinks (readOperand .empty (Node.ofText .empty)) 7 ['+', '1'] =
        readLinks (readOperand .empty (Node.ofText .empty)) 3 ['+', '1'] ∧
      Recurs .empty (Node.ofText .empty) := by
  intro quoted text
  obtain ⟨progress, -, shorter, congruence, -, links, -, recursion⟩ :=
    operand_reading_progresses_and_ends .empty
  have taken : readGroup (Node.ofText .empty) text =
      .ok (some (.group false (.text "x)"), ['+', '1'])) := rfl
  have cut : Encloses '(' ')' quoted quoted := by
    intro after
    simp [quoted, scanPaired, scanContent, scanContent_right]
  have agree : AgreeInside (Node.ofText .empty) (readNode .empty text.length) text :=
    fun inside insideOf => readNode_congr (Nat.lt_succ_self _) insideOf.shorter
  exact ⟨taken, progress _ _ _ List.mem_cons_self _ _ taken, .content .round cut,
    shorter _ _ (.content .round cut), agree, congruence _ _ _ agree,
    links _ ['+', '1'] 7 (by decide), (recursion _).mpr rfl⟩

end FieldRules.Expr
