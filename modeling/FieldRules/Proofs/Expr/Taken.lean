import FieldRules.Expr.Operand
import FieldRules.Proofs.Expr.Tokens
import FieldRules.Proofs.Expr.Written
import FieldRules.Proofs.Outcome
import FieldRules.Proofs.Text.Word
import Mathlib.Tactic.FinCases

/-!
# Operands are taken off the front of a text

Readers are tried in order, so an operand is taken by its own reader when the
readers before it decline.  They decline by the first character of the text, or
by what follows its first word or parenthesis.  What follows the operand is a
terminator.
-/

namespace FieldRules.Expr

open FieldRules.Text

variable {text after : List Char} {c : Char}

/-! ## First characters -/

theorem scanPaired_eq_none {left right : Char} (other : text.head? ≠ some left) :
    scanPaired left right text = none := by
  cases text with
  | nil => rfl
  | cons head text =>
      rw [scanPaired, if_neg]
      rintro rfl
      exact other rfl

theorem isIdentifierStart_head {word : List Char} (identifier : isIdentifier word = true) :
    ∀ c ∈ (word ++ text).head?, isIdentifierStart c = true := by
  cases word with
  | nil => cases identifier
  | cons head word =>
      rw [isIdentifier, Bool.and_eq_true] at identifier
      rintro c ⟨⟩
      exact identifier.1

theorem head_ne_of_isIdentifier {word : List Char} (identifier : isIdentifier word = true)
    (noStart : isIdentifierStart c = false) : (word ++ text).head? ≠ some c := by
  intro head
  rw [isIdentifierStart_head identifier c head] at noStart
  cases noStart

theorem signs_not_identifierStart : ∀ c ∈ ['-', '+'], isIdentifierStart c = false := by
  intro c mem
  fin_cases mem <;> rfl

theorem signs_not_openings : ∀ c ∈ ['-', '+'], c ∉ ['!', '(', '\''] := by
  intro c mem
  fin_cases mem <;> decide

theorem openings_not_digits : ∀ c ∈ ['!', '(', '\''], c.isDigit = false := by
  intro c mem
  fin_cases mem <;> rfl

/-! ## Starts of selectors -/

/-- Behind a path there is no letter: a subscript or a terminator follows. -/
theorem readElementMark_eq_none (ends : endsSelectorHead text = true) :
    readElementMark text = none := by
  unfold readElementMark
  split
  · cases ends
  · cases ends
  · rfl

theorem encloses_path {path : List Char} (wellFormed : isFieldPath path = true) :
    Encloses '(' ')' path path := by
  have contained : SelfContained 0 path := .ofWords fun _ => isWordChar_of_isFieldPath wellFormed
  exact contained.encloses (by decide : ('(', ')') ∈ brackets)

theorem encloses_nil : Encloses '(' ')' [] [] :=
  (SelfContained.nil 0).encloses (by decide : ('(', ')') ∈ brackets)

theorem readPath_field {path : List Char} (wellFormed : isFieldPath path = true)
    (after : List Char) :
    readPath ('(' :: path ++ ')' :: after) = some (some path, after) := by
  have some : path.isEmpty = false := by
    simpa using ne_nil_of_isFieldPath wellFormed
  have opens : ('(' :: path ++ ')' :: after).head? = Option.some '(' := rfl
  rw [readPath, if_pos opens, encloses_path wellFormed after]
  simp only [some, wellFormed, Bool.false_eq_true, if_false, if_true]

theorem readPath_empty (after : List Char) :
    readPath ('(' :: [] ++ ')' :: after) = some (none, after) := by
  have opens : ('(' :: [] ++ ')' :: after).head? = some '(' := rfl
  rw [readPath, if_pos opens, encloses_nil after]
  rfl

/-- The written starts of selectors; an empty path stands for none. -/
inductive SelectorHead : Origin → List Char → Prop
  | render {origin : Origin} (wellFormed : origin.WellFormed) : SelectorHead origin origin.render
  | emptyPath {origin : Origin} (noPath : origin.path? = none) :
      SelectorHead origin ('(' :: [] ++ ')' :: origin.render)

variable {origin : Origin} {head : List Char}

theorem withSlot_of_path?_eq_none {slotOf : String → Nat} (noPath : origin.path? = none) :
    origin.withSlot slotOf = origin := by
  cases origin <;> first | rfl | cases noPath

theorem readOrigin_of_path?_eq_none {rest : List Char} (noPath : origin.path? = none)
    (path : readPath text = some (none, origin.render ++ rest))
    (ends : endsSelectorHead rest = true) : readOrigin text = some (origin, rest) := by
  have noMark := readElementMark_eq_none ends
  cases origin with
  | current => simp [readOrigin, path, Origin.render, readSymbol, noMark]
  | field path slot => cases noPath
  | key => simp [readOrigin, path, Origin.render, readSymbol, readElementMark, ends]
  | value => simp [readOrigin, path, Origin.render, readSymbol, readElementMark, ends]

/-- The start of a selector is read off; its slot is given later. -/
theorem readOrigin_head (start : SelectorHead origin head) (ends : endsSelectorHead text = true) :
    readOrigin (head ++ text) = some (origin.withSlot fun _ => 0, text) := by
  cases start with
  | emptyPath noPath =>
      rw [withSlot_of_path?_eq_none noPath]
      exact readOrigin_of_path?_eq_none noPath (readPath_empty _) ends
  | render wellFormed =>
      cases origin with
      | field path slot =>
          have split : (Origin.field path slot).render ++ text =
              '(' :: path.toList ++ ')' :: '$' :: text := by
            simp [Origin.render]
          rw [split, readOrigin, readPath_field wellFormed]
          simp [readSymbol, readElementMark_eq_none ends, Origin.withSlot]
      | _ => exact readOrigin_of_path?_eq_none rfl rfl ends

theorem SelectorHead.exists_head (start : SelectorHead origin head) :
    ∃ c rest, head = c :: rest ∧ c ∈ ['$', '('] := by
  cases start with
  | render => cases origin <;> exact ⟨_, _, rfl, by simp⟩
  | emptyPath => exact ⟨_, _, rfl, by simp⟩

theorem render_head_other : ∀ c ∈ ['$', '('],
    isIdentifierStart c = false ∧ c.isDigit = false ∧ c ∉ ['-', '+'] ∧ c ≠ '!' ∧ c ≠ '\'' ∧
      c ≠ 't' ∧ c ≠ 'f' ∧ c ≠ 'n' := by
  intro c mem
  fin_cases mem <;> decide

/-! ## Brackets of subscripts -/

theorem length_le_length_bracketed (contents : List (List Char)) :
    contents.length ≤ (bracketed contents).length := by
  induction contents with
  | nil => exact Nat.le_refl 0
  | cons content contents ih =>
      simp only [bracketed, List.flatMap_cons, List.length_append, List.length_cons] at ih ⊢
      omega

theorem endsSelectorHead_subscripts (raws : List (List Char))
    (ends : atTerminator after = true) :
    endsSelectorHead (bracketed raws ++ after) = true := by
  cases raws <;> simp [bracketed, endsSelectorHead, ends]

variable [RegexLibrary]

variable {registry : Registry} {expression : ExpressionReader}

/-! ## Trying readers -/

theorem readFirst_declined {reader : List Char → Reading (Taken Node)}
    {readers : List (List Char → Reading (Taken Node))} (declined : reader text = .ok none) :
    readFirst text (reader :: readers) = readFirst text readers := by
  rw [readFirst, declined, bind_ok]

theorem readFirst_taken {reader : List Char → Reading (Taken Node)}
    {readers : List (List Char → Reading (Taken Node))} {operand : Node × List Char}
    (taken : reader text = .ok (some operand)) :
    readFirst text (reader :: readers) = .ok operand := by
  rw [readFirst, taken, bind_ok]

/-! ## Declining -/

theorem readGroup_declines {bangs : Nat} {rest : List Char}
    (split : readBangs text = (bangs, rest)) (noParen : rest.head? ≠ some '(') :
    readGroup expression text = .ok none := by
  rw [readGroup, split]
  simp only [scanPaired_eq_none noParen]

theorem readCall_declines (noBang : text.head? ≠ some '!')
    (noName : ∀ c ∈ text.head?, isIdentifierStart c = false) :
    readCall registry expression text = .ok none := by
  rw [readCall, readBangs_of_head_ne noBang]
  simp only [readIdentifier_eq_none noName]

theorem readText_declines (noQuote : text.head? ≠ some '\'') : readText text = none := by
  rw [readText, scanPaired_eq_none noQuote]
  rfl

theorem readNumber_declines
    (noStart : ∀ c ∈ text.head?, c.isDigit = false ∧ c ∉ ['-', '+']) :
    readNumber text = none := by
  cases text with
  | nil => rfl
  | cons c text =>
      obtain ⟨noDigit, noSign⟩ := noStart c rfl
      rw [readNumber, Number.readLiteral_eq_none noDigit noSign]

theorem readBool_declines (noBang : text.head? ≠ some '!') (noTrue : text.head? ≠ some 't')
    (noFalse : text.head? ≠ some 'f') : readBool text = none := by
  have true_none : readKeyword "true".toList text = none := readKeyword_eq_none _ noTrue
  have false_none : readKeyword "false".toList text = none := readKeyword_eq_none _ noFalse
  simp only [readBool, readBangs_of_head_ne noBang, true_none, false_none]

theorem readNil_declines (noNil : text.head? ≠ some 'n') : readNil text = none := by
  have nil_none : readKeyword "nil".toList text = none := readKeyword_eq_none _ noNil
  rw [readNil, nil_none]
  rfl

/-! ## Literals -/

/-- A string is taken whatever follows. -/
theorem readOperand_text {s : String} (quotable : Quotable s.toList) :
    readOperand registry expression (singleQuoted s.toList ++ after) = .ok (.text s, after) := by
  have noBang : (singleQuoted s.toList ++ after).head? ≠ some '!' := by simp [singleQuoted]
  have noGroup : readGroup expression (singleQuoted s.toList ++ after) = .ok none :=
    readGroup_declines (readBangs_of_head_ne noBang) (by simp [singleQuoted])
  have noCall : readCall registry expression (singleQuoted s.toList ++ after) = .ok none :=
    readCall_declines noBang (by simp [singleQuoted]; decide)
  rw [readOperand, operandReaders, readFirst_declined noGroup, readFirst_declined noCall]
  apply readFirst_taken
  simp only [readText, scanPaired_singleQuoted quotable, Option.map_some, String.ofList_toList]

theorem readOperand_number (literal : Number.Literal) (ends : atTerminator after = true) :
    readOperand registry expression (literal.text ++ after) =
      .ok (.number literal.numeral.toFloat, after) := by
  obtain ⟨c, rest, split, start⟩ := literal.exists_head
  have noName : isIdentifierStart c = false := by
    rcases start with digit | sign
    · exact isIdentifierStart_of_isDigit digit
    · exact signs_not_identifierStart c sign
  have other : c ∉ ['!', '(', '\''] := by
    rcases start with digit | sign
    · exact fun mem => absurd digit (by simp [openings_not_digits c mem])
    · exact signs_not_openings c sign
  simp only [List.mem_cons, List.not_mem_nil, or_false, not_or] at other
  obtain ⟨noBang, noParen, noQuote⟩ := other
  have bangs : readBangs (literal.text ++ after) = (0, literal.text ++ after) :=
    readBangs_of_head_ne (by simp [split, noBang])
  have noGroup : readGroup expression (literal.text ++ after) = .ok none :=
    readGroup_declines bangs (by simp [split, noParen])
  have noCall : readCall registry expression (literal.text ++ after) = .ok none :=
    readCall_declines (by simp [split, noBang]) (by simp [split, noName])
  have noText : readText (literal.text ++ after) = none :=
    readText_declines (by simp [split, noQuote])
  have stops : ∀ c ∈ after.head?, c.isDigit = false ∧ c ≠ '.' := by
    intro c mem
    have noWord := not_word_of_atTerminator ends c mem
    rw [isWordChar, Char.isAlphanum, Bool.or_eq_false_iff, Bool.or_eq_false_iff] at noWord
    refine ⟨noWord.1.2, ?_⟩
    rintro rfl
    exact head_ne_of_atTerminator ends (by decide) (by decide) mem
  rw [readOperand, operandReaders, readFirst_declined noGroup, readFirst_declined noCall,
    readFirst_declined (congrArg Except.ok noText)]
  apply readFirst_taken
  rw [readNumber, Number.readLiteral_text literal stops]
  simp only [ends, if_true]

/-- A word with exclamation marks in front of it is no group, call, string or
number. -/
theorem readOperand_word (bangs : Nat) {word : List Char} (identifier : isIdentifier word = true)
    (ends : atTerminator after = true) :
    readOperand registry expression (List.replicate bangs '!' ++ (word ++ after)) =
      readFirst (List.replicate bangs '!' ++ (word ++ after))
        [fun text => .ok (readBool text), fun text => .ok (readNil text),
          readSelector expression] := by
  generalize source : List.replicate bangs '!' ++ (word ++ after) = text
  have split : readBangs text = (bangs, word ++ after) :=
    source ▸ readBangs_replicate bangs (head_ne_of_isIdentifier identifier (by decide))
  have start : ∀ c ∈ text.head?, c = '!' ∨ isIdentifierStart c = true := by
    intro c mem
    rw [← source] at mem
    cases bangs with
    | zero => exact .inr (isIdentifierStart_head identifier c mem)
    | succ bangs =>
        cases mem
        exact .inl rfl
  have noGroup : readGroup expression text = .ok none :=
    readGroup_declines split (head_ne_of_isIdentifier identifier (by decide))
  have noCall : readCall registry expression text = .ok none := by
    have noOpening : after.head? ≠ some '(' :=
      head_ne_of_atTerminator ends (by decide) (by decide)
    rw [readCall, split]
    simp only [readIdentifier_append identifier (not_word_of_atTerminator ends), noOpening, ne_eq,
      not_false_eq_true, if_true]
  have noText : readText text = none := by
    refine readText_declines fun quote => ?_
    exact absurd (start _ quote) (by decide)
  have noNumber : readNumber text = none := by
    refine readNumber_declines fun c mem => ?_
    rcases start c mem with rfl | start
    · decide
    · constructor
      · cases digit : c.isDigit with
        | false => rfl
        | true => rw [isIdentifierStart_of_isDigit digit] at start; cases start
      · intro sign
        rw [signs_not_identifierStart c sign] at start
        cases start
  rw [readOperand, operandReaders, readFirst_declined noGroup, readFirst_declined noCall,
    readFirst_declined (congrArg Except.ok noText),
    readFirst_declined (congrArg Except.ok noNumber)]

/-- An odd number of exclamation marks exchanges `true` and `false`. -/
theorem readOperand_bool (bangs : Nat) (b : Bool) (ends : atTerminator after = true) :
    readOperand registry expression
      (List.replicate bangs '!' ++ ((if b then "true".toList else "false".toList) ++ after)) =
        .ok (.bool (b != negates bangs), after) := by
  cases b with
  | false =>
      have true_none : readKeyword "true".toList ("false".toList ++ after) = none :=
        by
        have other : ("false".toList ++ after).head? ≠ some 't' := by simp
        exact readKeyword_eq_none ['r', 'u', 'e'] other
      have noBang : ("false".toList ++ after).head? ≠ some '!' := by simp
      rw [if_neg (by decide), readOperand_word bangs (by decide) ends]
      apply readFirst_taken
      simp only [readBool, readBangs_replicate bangs noBang, true_none, readKeyword_append _ ends,
        Bool.false_bne]
  | true =>
      have noBang : ("true".toList ++ after).head? ≠ some '!' := by simp
      rw [if_pos rfl, readOperand_word bangs (by decide) ends]
      apply readFirst_taken
      simp only [readBool, readBangs_replicate bangs noBang, readKeyword_append _ ends,
        Bool.true_bne]

theorem readOperand_nil (ends : atTerminator after = true) :
    readOperand registry expression ("nil".toList ++ after) = .ok (.nil, after) := by
  have noBool : readBool ("nil".toList ++ after) = none :=
    readBool_declines (by simp) (by simp) (by simp)
  have word : readOperand registry expression (List.replicate 0 '!' ++ ("nil".toList ++ after)) =
      _ := readOperand_word 0 (by decide) ends
  rw [List.replicate_zero, List.nil_append] at word
  rw [word, readFirst_declined (congrArg Except.ok noBool)]
  apply readFirst_taken
  rw [readNil, readKeyword_append _ ends]
  rfl

/-! ## Groups and calls -/

variable {raw content : List Char}

/-- A group is read off when its content can be read. -/
theorem readOperand_group (bangs : Nat) {inner : Node} (cut : Encloses '(' ')' raw content)
    (read : expression content = .ok inner) (ends : atTerminator after = true) :
    readOperand registry expression (List.replicate bangs '!' ++ ('(' :: raw ++ [')']) ++ after) =
      .ok (.group (negates bangs) inner, after) := by
  have noPath : after.head? ≠ some '$' := head_ne_of_atTerminator ends (by decide) (by decide)
  have noBang : ('(' :: raw ++ ')' :: after).head? ≠ some '!' := by simp
  have split : readBangs (List.replicate bangs '!' ++ ('(' :: raw ++ [')']) ++ after) =
      (bangs, '(' :: raw ++ ')' :: after) := by
    simpa using readBangs_replicate bangs noBang
  apply readFirst_taken
  rw [readGroup, split]
  simp only [cut after, noPath, if_false, read, bind_ok]

/-- A call is read off when its name is a word and its arguments can be read. -/
theorem readOperand_call (bangs : Nat) {name : List Char} {callee : Callee} {nodes : List Node}
    (identifier : isIdentifier name = true) (cut : Encloses '(' ')' raw content)
    (shown : (pieces content).any List.isEmpty = false)
    (read : readCallOf registry expression (.ofList name) (pieces content) = .ok (callee, nodes)) :
    readOperand registry expression
        (List.replicate bangs '!' ++ name ++ ('(' :: raw ++ [')']) ++ after) =
      .ok (.call (negates bangs) callee nodes, after) := by
  have noBang : (name ++ ('(' :: raw ++ ')' :: after)).head? ≠ some '!' :=
    head_ne_of_isIdentifier identifier (by decide)
  have split : readBangs (List.replicate bangs '!' ++ name ++ ('(' :: raw ++ [')']) ++ after) =
      (bangs, name ++ ('(' :: raw ++ ')' :: after)) := by
    simpa using readBangs_replicate bangs noBang
  have noGroup : readGroup expression
      (List.replicate bangs '!' ++ name ++ ('(' :: raw ++ [')']) ++ after) = .ok none :=
    readGroup_declines split (head_ne_of_isIdentifier identifier (by decide))
  have named : readIdentifier (name ++ ('(' :: raw ++ ')' :: after)) =
      some (name, '(' :: raw ++ ')' :: after) :=
    readIdentifier_append identifier (by simp; decide)
  have opens : ('(' :: raw ++ ')' :: after).head? = some '(' := rfl
  rw [readOperand, operandReaders, readFirst_declined noGroup]
  apply readFirst_taken
  rw [readCall, split]
  simp only [named, opens, ne_eq, not_true_eq_false, cut after, shown, read, bind_ok,
    Bool.false_eq_true, if_false]

/-! ## Selectors -/

/-- A text in brackets is read as a subscript. -/
def ReadsSubscript (expression : ExpressionReader) (raw : List Char) (node : Node) : Prop :=
  ∃ content, Encloses '[' ']' raw content ∧ isBlankText content = false ∧
    expression content = .ok node

/-- Texts in brackets are read off one after the other. -/
theorem readSubscripts_append {raws : List (List Char)} {nodes : List Node}
    (read : List.Forall₂ (ReadsSubscript expression) raws nodes) (ends : after.head? ≠ some '[')
    (steps : Nat) :
    readSubscripts expression (raws.length + steps) (bracketed raws ++ after) =
      .ok (some (nodes, after)) := by
  induction read with
  | nil =>
      cases steps with
      | zero => rfl
      | succ steps => simp [readSubscripts, bracketed, ends]
  | @cons raw node raws nodes first rest ih =>
      obtain ⟨content, cut, shown, first⟩ := first
      have split : bracketed (raw :: raws) ++ after =
          '[' :: raw ++ ']' :: (bracketed raws ++ after) := by
        simp [bracketed]
      have opens (after : List Char) : ('[' :: raw ++ after).head? = some '[' := rfl
      have count : (raw :: raws).length + steps = raws.length + steps + 1 := by
        simp only [List.length_cons]
        omega
      rw [split, count, readSubscripts, cut]
      simp only [opens, ne_eq, not_true_eq_false, if_false, shown, Bool.false_eq_true, first, ih,
        bind_ok]

/-- A parenthesis with `$` behind it is no group. -/
theorem readGroup_declines_parentheses {path rest : List Char} (cut : Encloses '(' ')' path path)
    (selects : rest.head? = some '$') :
    readGroup expression ('(' :: path ++ ')' :: rest) = .ok none := by
  have noBang : ('(' :: path ++ ')' :: rest).head? ≠ some '!' := by simp
  rw [readGroup, readBangs_of_head_ne noBang]
  simp only [cut rest, selects, if_true]

theorem readGroup_declines_selector (start : SelectorHead origin head) :
    readGroup expression (head ++ text) = .ok none := by
  cases start with
  | emptyPath noPath =>
      rw [List.append_assoc, List.cons_append]
      refine readGroup_declines_parentheses encloses_nil ?_
      cases origin <;> first | rfl | cases noPath
  | render wellFormed =>
      cases origin with
      | field path slot =>
          have split : (Origin.field path slot).render ++ text =
              '(' :: path.toList ++ ')' :: '$' :: text := by
            simp [Origin.render]
          rw [split]
          exact readGroup_declines_parentheses (encloses_path wellFormed) rfl
      | _ =>
          exact readGroup_declines (readBangs_of_head_ne (by simp [Origin.render]))
            (by simp [Origin.render])

theorem readOperand_selector (start : SelectorHead origin head) {raws : List (List Char)}
    {nodes : List Node} (read : List.Forall₂ (ReadsSubscript expression) raws nodes)
    (ends : atTerminator after = true) :
    readOperand registry expression (head ++ bracketed raws ++ after) =
      .ok (.selector (origin.withSlot fun _ => 0) nodes, after) := by
  rw [List.append_assoc]
  generalize rest_eq : bracketed raws ++ after = rest
  obtain ⟨c, more, split, first⟩ := start.exists_head
  obtain ⟨noName, noDigit, noSign, noBang, noQuote, noTrue, noFalse, noNil⟩ :=
    render_head_other c first
  have at_head : (head ++ rest).head? = some c := by simp [split]
  have noCall : readCall registry expression (head ++ rest) = .ok none :=
    readCall_declines (by simp [at_head, noBang]) (by simp [at_head, noName])
  have noText : readText (head ++ rest) = none :=
    readText_declines (by simp [at_head, noQuote])
  have noNumber : readNumber (head ++ rest) = none := by
    refine readNumber_declines fun d mem => ?_
    obtain rfl : c = d := by simpa [at_head] using mem
    exact ⟨noDigit, noSign⟩
  have noBool : readBool (head ++ rest) = none :=
    readBool_declines (by simp [at_head, noBang]) (by simp [at_head, noTrue])
      (by simp [at_head, noFalse])
  have noNil : readNil (head ++ rest) = none :=
    readNil_declines (by simp [at_head, noNil])
  have ends' : endsSelectorHead rest = true := rest_eq ▸ endsSelectorHead_subscripts raws ends
  have enough : raws.length ≤ rest.length := by
    rw [← rest_eq, List.length_append]
    exact (length_le_length_bracketed raws).trans (Nat.le_add_right _ _)
  obtain ⟨steps, count⟩ := Nat.exists_eq_add_of_le enough
  have subscripts : readSubscripts expression rest.length rest = .ok (some (nodes, after)) := by
    rw [count, ← rest_eq]
    exact readSubscripts_append read (head_ne_of_atTerminator ends (by decide) (by decide)) steps
  rw [readOperand, operandReaders, readFirst_declined (readGroup_declines_selector start),
    readFirst_declined noCall, readFirst_declined (congrArg Except.ok noText),
    readFirst_declined (congrArg Except.ok noNumber),
    readFirst_declined (congrArg Except.ok noBool), readFirst_declined (congrArg Except.ok noNil)]
  apply readFirst_taken
  rw [readSelector, readOrigin_head start ends']
  simp only [subscripts, bind_ok, ends, if_true]

end FieldRules.Expr
