import FieldRules.Proofs.Datum.Registry
import FieldRules.Proofs.Expr.Operands
import FieldRules.Proofs.Expr.Readable
import FieldRules.Proofs.Expr.Slots
import FieldRules.Proofs.Expr.Taken
import Mathlib.Tactic.FinCases

/-!
# Operands that are read back

Each kind of operand is read back from its written form when the trees inside it
are: what stands in brackets is cut out whole and read on its own.
-/

namespace FieldRules.Expr

open FieldRules.Text

variable {text : List Char} {texts : List (List Char)}

/-! ## Parts of operands -/

theorem StartsOperand.of_trimmed (trimmed : Trimmed text) (noEquals : text.head? ≠ some '=') :
    StartsOperand text := by
  obtain ⟨c, head, shown⟩ := trimmed.head
  refine ⟨c, head, isLayout_eq_false shown, ?_⟩
  rintro rfl
  exact noEquals head

theorem trimmed_of_isIdentifier (identifier : isIdentifier text = true) : Trimmed text := by
  refine .of_forall ?_ fun c mem => isBlank_of_isWordChar (isWordChar_of_isIdentifier identifier mem)
  rintro rfl
  cases identifier

/-- The characters of a number literal are digits, signs and points. -/
theorem mem_literal_text {literal : Number.Literal} {c : Char} (mem : c ∈ literal.text) :
    c.isDigit = true ∨ c ∈ ['-', '+', '.'] := by
  rw [Number.Literal.text, List.mem_append, List.mem_append] at mem
  rcases mem with (inSign | inWhole) | inPointed
  · have sign := literal.sign_mem
    simp only [List.mem_cons, List.not_mem_nil, or_false] at sign
    rcases sign with empty | minus | plus
    · rw [empty] at inSign
      cases inSign
    · rw [minus] at inSign
      exact .inr (List.mem_cons.mpr (.inl (List.mem_singleton.mp inSign)))
    · rw [plus] at inSign
      exact .inr (by simp [List.mem_singleton.mp inSign])
  · exact .inl (literal.whole_digits c inWhole)
  · rw [Number.Literal.pointed] at inPointed
    split_ifs at inPointed
    · cases inPointed
    · rcases List.mem_cons.mp inPointed with rfl | inFraction
      · exact .inr (by simp)
      · exact .inl (literal.fraction_digits c inFraction)

theorem signs_plain : ∀ c ∈ ['-', '+', '.'], isBlank c = false ∧ c ∉ marks ∧ c ≠ '=' := by
  intro c mem
  fin_cases mem <;> decide

theorem marks_not_digits : ∀ c ∈ marks, c.isDigit = false := by
  intro c mem
  fin_cases mem <;> rfl

theorem isWordChar_of_isDigit {c : Char} (digit : c.isDigit = true) : isWordChar c = true := by
  simp [isWordChar, Char.isAlphanum, digit]

theorem trimmed_negation (negate : Bool) {rest : List Char} (trimmed : Trimmed rest) :
    Trimmed (negation negate ++ rest) := by
  cases negate with
  | false => exact trimmed
  | true =>
      have mark : Trimmed ['!'] := ⟨⟨'!', rfl, by decide⟩, ⟨'!', rfl, by decide⟩⟩
      exact mark.append trimmed

theorem contained_negation (negate : Bool) {depth : Nat} :
    SelfContained depth (negation negate) := by
  cases negate with
  | false => exact .nil depth
  | true => exact .plain (by decide)

/-! ## Parts in brackets -/

theorem encloses_parentheses {depth : Nat} {content : List Char}
    (contained : SelfContained depth content) : Encloses '(' ')' content content :=
  contained.encloses (by decide : ('(', ')') ∈ brackets)

theorem contained_parentheses {content : List Char} (contained : SelfContained 1 content) :
    SelfContained 0 ('(' :: content ++ [')']) :=
  SelfContained.enclosed (by decide : ('(', ')') ∈ brackets) contained

theorem contained_bracketed {contents : List (List Char)}
    (contained : ∀ content ∈ contents, SelfContained 1 content) :
    SelfContained 0 (bracketed contents) := by
  rw [bracketed, List.flatMap_def]
  refine .flatten fun text mem => ?_
  obtain ⟨content, inContents, rfl⟩ := List.mem_map.mp mem
  exact SelfContained.enclosed (by decide : ('[', ']') ∈ brackets) (contained content inContents)

theorem trimmed_bracketed {start : List Char} (trimmed : Trimmed start)
    (contents : List (List Char)) : Trimmed (start ++ bracketed contents) := by
  induction contents generalizing start with
  | nil => simpa [bracketed] using trimmed
  | cons content contents ih =>
      have first : Trimmed ('[' :: content ++ [']']) := .enclosed (by decide) (by decide) _
      simpa [bracketed] using ih (trimmed.append first)

theorem length_lt_of_mem_bracketed {contents : List (List Char)} {content : List Char}
    (mem : content ∈ contents) : content.length < (bracketed contents).length := by
  induction contents with
  | nil => cases mem
  | cons head contents ih =>
      simp only [bracketed, List.flatMap_cons, List.length_append, List.length_cons] at ih ⊢
      rcases List.mem_cons.mp mem with rfl | mem
      · omega
      · have := ih mem
        omega

theorem render_field (path : String) (slot : Nat) :
    (Origin.field path slot).render = ('(' :: path.toList ++ [')']) ++ ['$'] := by
  simp [Origin.render]

theorem contained_render {origin : Origin} (wellFormed : origin.WellFormed) :
    SelfContained 0 origin.render := by
  cases origin with
  | field path slot =>
      have inside : SelfContained 1 path.toList :=
        .ofWords fun _ => isWordChar_of_isFieldPath wellFormed
      rw [render_field]
      exact (contained_parentheses inside).append (.plain (by decide))
  | _ => exact .ofPlain (by simp [Origin.render]; decide)

theorem trimmed_render (origin : Origin) : Trimmed origin.render := by
  cases origin with
  | field path slot =>
      have opened : Trimmed ('(' :: path.toList ++ [')']) := .enclosed (by decide) (by decide) _
      rw [render_field]
      exact opened.append ⟨⟨'$', rfl, by decide⟩, ⟨'$', rfl, by decide⟩⟩
  | _ => exact ⟨⟨'$', rfl, by decide⟩, ⟨_, rfl, by decide⟩⟩

/-! ## Parts of argument lists -/

/-- A text with layout around it that can stand in an argument list. -/
structure IsPiece (source : List Char) : Prop where
  contained : SelfContained 0 source
  shown : isBlankText source = false
  some : trim source ≠ []

theorem trim_placed {before text after : List Char} (trimmed : Trimmed text)
    (gap_before : IsGap before) (gap_after : IsGap after) :
    trim (before ++ text ++ after) = text :=
  trim_surrounded trimmed gap_before.isBlank gap_after.isBlank

theorem isPiece_placed {before text after : List Char} (contained : SelfContained 0 text)
    (trimmed : Trimmed text) (gap_before : IsGap before) (gap_after : IsGap after) :
    IsPiece (before ++ text ++ after) where
  contained := ((SelfContained.ofGap gap_before).append contained).append (.ofGap gap_after)
  shown := by
    obtain ⟨c, mem, shown⟩ := trimmed.exists_mem
    exact isBlankText_eq_false (by simp [mem]) shown
  some := by
    rw [trim_placed trimmed gap_before gap_after]
    exact trimmed.ne_nil

theorem infix_intercalate (separator : List Char) (mem : text ∈ texts) :
    text <:+: separator.intercalate texts := by
  induction texts with
  | nil => cases mem
  | cons first texts ih =>
      cases texts with
      | nil =>
          obtain rfl := List.mem_singleton.mp mem
          exact List.intercalate_singleton ▸ List.infix_rfl
      | cons next texts =>
          rw [List.intercalate_cons_cons]
          rcases List.mem_cons.mp mem with rfl | mem
          · exact ⟨[], separator ++ separator.intercalate (next :: texts), by simp⟩
          · exact (ih mem).trans (List.suffix_append _ _).isInfix

theorem contained_intercalate (contained : ∀ text ∈ texts, SelfContained 0 text) :
    SelfContained 1 ([','].intercalate texts) := by
  induction texts with
  | nil => exact .nil 1
  | cons first texts ih =>
      have firstContained : SelfContained 1 first := (contained first List.mem_cons_self).inside 1
      cases texts with
      | nil => rwa [List.intercalate_singleton]
      | cons next texts =>
          rw [List.intercalate_cons_cons]
          exact (firstContained.append .comma).append
            (ih fun text mem => contained text (List.mem_cons_of_mem _ mem))

/-- An argument list is cut into its trimmed texts. -/
theorem pieces_of_isPiece (some : texts ≠ []) (isPiece : ∀ text ∈ texts, IsPiece text) :
    pieces ([','].intercalate texts) = texts.map trim := by
  refine pieces_intercalate some (fun text mem => (isPiece text mem).contained.unsliced) ?_
  obtain ⟨text, mem⟩ := List.exists_mem_of_ne_nil texts some
  obtain ⟨c, inText, shown⟩ := List.all_eq_false.mp (isPiece text mem).shown
  exact List.all_eq_false.mpr ⟨c, (infix_intercalate [','] mem).subset inText, shown⟩

theorem any_isEmpty_pieces (isPiece : ∀ text ∈ texts, IsPiece text) :
    (texts.map trim).any List.isEmpty = false := by
  simp only [List.any_map, List.any_eq_false, Function.comp_apply, List.isEmpty_iff]
  exact fun text mem => (isPiece text mem).some

/-! ## Names and arities -/

theorem isIdentifier_builtin : ∀ name ∈ builtinNames, isIdentifier name.toList = true := by
  decide

theorem builtinArity?_eq_none {name : String} (free : name ∉ builtinNames) :
    builtinArity? name = none := by
  simp only [builtinNames, List.mem_cons, List.not_mem_nil, or_false, not_or] at free
  rw [builtinArity?, List.lookup_eq_none_iff]
  simpa using free

theorem checkArity_of_admits {name : String} {arity : Arity}
    (admits : arity.admits texts.length = true) : checkArity name arity texts = .ok () :=
  if_pos admits

variable [RegexLibrary]

variable {registry : Registry}

/-! ## Words, numbers and strings -/

/-- A word that is taken as an operand is read back. -/
theorem Readable.of_word {tree : Node} (operand : tree.isOperand = true)
    (identifier : isIdentifier text = true)
    (taken : ∀ depth after, atTerminator after = true →
      readOperand registry (Expr.readNode registry depth) (text ++ after) = .ok (tree, after)) :
    Readable registry tree text := by
  have contained : SelfContained 0 text :=
    .ofWords fun c mem => .inl (isWordChar_of_isIdentifier identifier mem)
  have trimmed := trimmed_of_isIdentifier identifier
  have noEquals : (text ++ []).head? ≠ some '=' := head_ne_of_isIdentifier identifier (by decide)
  rw [List.append_nil] at noEquals
  exact .of_operand operand contained trimmed (.of_trimmed trimmed noEquals)
    fun depth _ => taken depth

theorem readable_nil : Readable registry .nil "nil".toList :=
  .of_word rfl (by decide) fun _ _ => readOperand_nil

theorem readable_bool (b : Bool) :
    Readable registry (.bool b) (if b then "true".toList else "false".toList) :=
  .of_word rfl (by cases b <;> decide) fun _ _ ends => by
    simpa [negates] using readOperand_bool 0 b ends

theorem readable_number (literal : Number.Literal) :
    Readable registry (.number literal.numeral.toFloat) literal.text := by
  have plain {c : Char} (mem : c ∈ literal.text) : isBlank c = false ∧ c ∉ marks ∧ c ≠ '=' := by
    rcases mem_literal_text mem with digit | sign
    · refine ⟨isBlank_of_isWordChar (isWordChar_of_isDigit digit), fun mark => ?_, ?_⟩
      · rw [marks_not_digits c mark] at digit
        cases digit
      · rintro rfl
        cases digit
    · exact signs_plain c sign
  obtain ⟨c, rest, split, -⟩ := literal.exists_head
  have trimmed : Trimmed literal.text :=
    .of_forall (by simp [split]) fun c mem => (plain mem).1
  have noEquals : literal.text.head? ≠ some '=' := by
    intro head
    exact (plain (List.mem_of_head? head)).2.2 rfl
  exact .of_operand rfl (.ofPlain fun c mem => (plain mem).2.1) trimmed
    (.of_trimmed trimmed noEquals) fun _ _ _ ends => readOperand_number literal ends

theorem readable_text {s : String} (quotable : Quotable s.toList) :
    Readable registry (.text s) (singleQuoted s.toList) := by
  have trimmed : Trimmed (singleQuoted s.toList) :=
    .enclosed (by decide) (by decide) _
  exact .of_operand rfl (.singleQuoted quotable) trimmed
    (.of_trimmed trimmed (by simp [singleQuoted]))
    fun _ _ _ _ => readOperand_text quotable

/-! ## Placed trees -/

/-- A placed tree that is read back. -/
def PlacedReadable (registry : Registry) (placed : Placed) : Prop :=
  Readable registry placed.tree.unslotted placed.text

namespace PlacedReadable

variable {placed : Placed} (readable : PlacedReadable registry placed)

include readable

theorem isPiece : IsPiece placed.source :=
  isPiece_placed (Readable.contained readable) (Readable.trimmed readable) placed.gap_before
    placed.gap_after

theorem trim_source : trim placed.source = placed.text :=
  trim_placed (Readable.trimmed readable) placed.gap_before placed.gap_after

theorem read_source {depth : Nat} (fits : placed.source.length < depth) :
    readNode registry depth placed.source = .ok placed.tree.unslotted :=
  Readable.readNode readable placed.gap_before placed.gap_after fits

theorem read_text {depth : Nat} (fits : placed.source.length < depth) :
    readNode registry depth placed.text = .ok placed.tree.unslotted := by
  have shorter : ([] ++ placed.text ++ []).length < depth := by
    simp only [Placed.source, List.length_append] at fits
    simp
    omega
  simpa using Readable.readNode readable isGap_nil isGap_nil shorter

end PlacedReadable

/-! ## Groups and selectors -/

theorem readable_group {negate : Bool} {inner : Placed}
    (readable : PlacedReadable registry inner) :
    Readable registry (.group negate inner.tree.unslotted)
      (negation negate ++ ('(' :: inner.source ++ [')'])) := by
  have contained : SelfContained 1 inner.source := readable.isPiece.contained.inside 1
  have trimmed : Trimmed (negation negate ++ ('(' :: inner.source ++ [')'])) :=
    trimmed_negation negate (.enclosed (by decide) (by decide) _)
  have noEquals : (negation negate ++ ('(' :: inner.source ++ [')'])).head? ≠ some '=' := by
    cases negate <;> simp [negation]
  refine .of_operand rfl ((contained_negation negate).append (contained_parentheses contained))
    trimmed (.of_trimmed trimmed noEquals) fun depth enough after ends => ?_
  have fits : inner.source.length < depth := by
    simp only [List.length_append, List.length_cons] at enough
    omega
  have taken : readOperand registry (readNode registry depth) _ = _ :=
    readOperand_group (if negate then 1 else 0) (encloses_parentheses contained)
      (readable.read_source fits) ends
  rwa [← negation_eq_replicate, negates_negation] at taken

theorem readable_selector {origin : Origin} (wellFormed : origin.WellFormed)
    {subscripts : List Placed}
    (readable : ∀ subscript ∈ subscripts, PlacedReadable registry subscript) :
    Readable registry
      (.selector (origin.withSlot fun _ => 0) (subscripts.map fun subscript =>
        subscript.tree.unslotted))
      (origin.render ++ bracketed (subscripts.map Placed.source)) := by
  have contained : ∀ content ∈ subscripts.map Placed.source, SelfContained 1 content := by
    intro content mem
    obtain ⟨subscript, inList, rfl⟩ := List.mem_map.mp mem
    exact (readable subscript inList).isPiece.contained.inside 1
  have trimmed := trimmed_bracketed (trimmed_render origin) (subscripts.map Placed.source)
  have noEquals :
      (origin.render ++ bracketed (subscripts.map Placed.source)).head? ≠ some '=' := by
    cases origin <;> simp [Origin.render]
  refine .of_operand rfl ((contained_render wellFormed).append (contained_bracketed contained))
    trimmed (.of_trimmed trimmed noEquals) fun depth enough after ends => ?_
  refine readOperand_selector (.render wellFormed) ?_ ends
  rw [List.forall₂_map_left_iff, List.forall₂_map_right_iff, List.forall₂_same]
  intro subscript inList
  have piece := (readable subscript inList).isPiece
  have shorter : subscript.source.length < (bracketed (subscripts.map Placed.source)).length :=
    length_lt_of_mem_bracketed (List.mem_map_of_mem inList)
  rw [List.length_append] at enough
  exact ⟨_, piece.contained.encloses (by decide : ('[', ']') ∈ brackets), piece.shown,
    (readable subscript inList).read_source (by omega)⟩

/-! ## Callees -/

/-- A quoted pattern is read back. -/
theorem readPattern_singleQuoted {pattern : Pattern} (quotable : Quotable pattern.text.toList) :
    readPattern (singleQuoted pattern.text.toList) = .ok pattern := by
  have trimmed : Trimmed (singleQuoted pattern.text.toList) := .enclosed (by decide) (by decide) _
  have cut : scanPaired '\'' '\'' (singleQuoted pattern.text.toList) =
      some (pattern.text.toList, []) := by
    simpa using scanPaired_singleQuoted quotable []
  have literal : quotedLiteral? (singleQuoted pattern.text.toList) =
      some pattern.text.toList := by
    rw [quotedLiteral?, trim_eq_self trimmed, cut]
    rfl
  simp only [readPattern, literal, String.ofList_toList, Pattern.ofText?_text]

variable {expression : ExpressionReader} {callee : Callee} {literals : List (List Char)}
  {nodes : List Node}

theorem readAllOrCurrent_of_forall₂
    (read : List.Forall₂ (fun text node => expression text = .ok node) texts nodes)
    (some : texts.length = 1) : readAllOrCurrent expression texts = .ok nodes := by
  have notEmpty : ¬ texts.isEmpty = true := by
    cases texts with
    | nil => cases some
    | cons text texts => simp
  rw [readAllOrCurrent, if_neg notEmpty]
  exact readAll_eq_ok_iff.mpr read

/-- Built-in functions other than `len` and `regexp` read all their arguments. -/
theorem readCallOf_readAll {name : String} {arity : Arity}
    (builtin : builtinArity? name = some arity) (admits : arity.admits texts.length = true)
    (noLen : name ≠ "len") (noRegexp : name ≠ "regexp")
    (read : List.Forall₂ (fun text node => expression text = .ok node) texts nodes) :
    readCallOf registry expression name texts =
      .ok (if name = "sprintf" then .sprintf else if name = "in" then .oneOf else .range, nodes) := by
  simp only [readCallOf, builtin, checkArity_of_admits admits, bind_ok, if_neg noLen,
    if_neg noRegexp, readAll_eq_ok_iff.mpr read]

/-- The callee of a written call is read back with its arguments. -/
theorem readCallOf_name (reachable : registry.Reachable)
    (takes : callee.Takes registry texts.length) (writes : callee.WritesLiterals literals)
    (read : List.Forall₂ (fun text node => expression text = .ok node) texts nodes) :
    readCallOf registry expression callee.name (literals.map trim ++ texts) =
      .ok (callee, nodes) := by
  cases writes with
  | @pattern pattern before after quotable gap_before gap_after =>
      have single : texts.length = 1 := takes
      have trimmed : Trimmed (singleQuoted pattern.text.toList) :=
        .enclosed (by decide) (by decide) _
      have literal : trim (before ++ singleQuoted pattern.text.toList ++ after) =
          singleQuoted pattern.text.toList :=
        trim_placed trimmed gap_before gap_after
      have arity : builtinArity? "regexp" = some ⟨1, some 2⟩ := rfl
      have fits : checkArity "regexp" ⟨1, some 2⟩
          (singleQuoted pattern.text.toList :: texts) = .ok () :=
        checkArity_of_admits (by simp [Arity.admits, single])
      simp only [Callee.name, readCallOf, arity, List.map_cons, List.map_nil, literal,
        List.cons_append, List.nil_append, fits, bind_ok, List.headD_cons, List.tail_cons,
        readPattern_singleQuoted quotable, readAllOrCurrent_of_forall₂ read single]
      rfl
  | none noPattern =>
      rw [List.map_nil, List.nil_append]
      cases callee with
      | len =>
          have single : texts.length = 1 := takes
          have arity : builtinArity? "len" = some ⟨0, some 1⟩ := rfl
          have fits : checkArity "len" ⟨0, some 1⟩ texts = .ok () :=
            checkArity_of_admits (by simp [Arity.admits, single])
          simp only [Callee.name, readCallOf, arity, fits, bind_ok, if_true,
            readAllOrCurrent_of_forall₂ read single]
      | regexp pattern => exact absurd rfl (noPattern pattern)
      | sprintf =>
          have some : 1 ≤ texts.length := takes
          have arity : builtinArity? "sprintf" = Option.some ⟨1, none⟩ := rfl
          exact readCallOf_readAll arity (by simp [Arity.admits, some]) (by simp [Callee.name])
            (by simp [Callee.name]) read
      | oneOf =>
          have some : 1 ≤ texts.length := takes
          have arity : builtinArity? "in" = Option.some ⟨1, none⟩ := rfl
          exact readCallOf_readAll arity (by simp [Arity.admits, some]) (by simp [Callee.name])
            (by simp [Callee.name]) read
      | range =>
          have two : texts.length = 2 := takes
          have arity : builtinArity? "range" = some ⟨2, some 2⟩ := rfl
          exact readCallOf_readAll arity (by simp [Arity.admits, two]) (by simp [Callee.name])
            (by simp [Callee.name]) read
      | predicate name holds =>
          obtain ⟨found, single⟩ := takes
          have free := (reachable.free_of_find? found).2.1
          have fits : checkArity name predicateArity texts = .ok () :=
            checkArity_of_admits (by simp [predicateArity, Arity.admits, single])
          simp only [Callee.name, readCallOf, builtinArity?_eq_none free, found, fits, bind_ok,
            readAllOrCurrent_of_forall₂ read single]

theorem pos_of_takes {count : Nat} (takes : callee.Takes registry count) : 1 ≤ count := by
  cases callee with
  | len => exact takes.ge
  | regexp pattern => exact takes.ge
  | sprintf => exact takes
  | oneOf => exact takes
  | range =>
      obtain rfl : count = 2 := takes
      decide
  | predicate name holds => exact takes.2.ge

/-- The name of a callee is an identifier. -/
theorem isIdentifier_name (reachable : registry.Reachable) {count : Nat}
    (takes : callee.Takes registry count) : isIdentifier callee.name.toList = true := by
  cases callee with
  | predicate name holds => exact (reachable.free_of_find? takes.1).1
  | _ => exact isIdentifier_builtin _ (by simp [Callee.name, builtinNames])

theorem isPiece_of_writesLiterals (writes : callee.WritesLiterals literals) :
    ∀ literal ∈ literals, IsPiece literal := by
  cases writes with
  | pattern quotable gap_before gap_after =>
      intro literal mem
      obtain rfl := List.mem_singleton.mp mem
      exact isPiece_placed (.singleQuoted quotable) (.enclosed (by decide) (by decide) _)
        gap_before gap_after
  | none => simp

/-! ## Calls -/

variable {arguments : List Placed}

/-- What stands between the parentheses of a written call are pieces. -/
theorem isPiece_of_readable (writes : callee.WritesLiterals literals)
    (readable : ∀ argument ∈ arguments, PlacedReadable registry argument) :
    ∀ source ∈ literals ++ arguments.map Placed.source, IsPiece source := by
  intro source mem
  rcases List.mem_append.mp mem with inLiterals | inArguments
  · exact isPiece_of_writesLiterals writes source inLiterals
  · obtain ⟨argument, inList, rfl⟩ := List.mem_map.mp inArguments
    exact (readable argument inList).isPiece

/-- The text between the parentheses of a written call is cut into its arguments,
none of which is empty. -/
theorem pieces_argumentsText (writes : callee.WritesLiterals literals)
    (readable : ∀ argument ∈ arguments, PlacedReadable registry argument)
    (some : 1 ≤ arguments.length) :
    pieces (argumentsText literals arguments) =
        literals.map trim ++ arguments.map Placed.text ∧
      (pieces (argumentsText literals arguments)).any List.isEmpty = false := by
  have isPiece := isPiece_of_readable writes readable
  have notEmpty : literals ++ arguments.map Placed.source ≠ [] := by
    cases arguments with
    | nil => cases some
    | cons argument arguments => simp
  have texts : (arguments.map Placed.source).map trim = arguments.map Placed.text := by
    rw [List.map_map]
    exact List.map_congr_left fun argument mem => (readable argument mem).trim_source
  rw [argumentsText, pieces_of_isPiece notEmpty isPiece]
  constructor
  · rw [List.map_append, texts]
  · exact any_isEmpty_pieces isPiece

theorem length_source_le {argument : Placed} (mem : argument ∈ arguments) :
    argument.source.length ≤ (argumentsText literals arguments).length := by
  have inside : argument.source ∈ literals ++ arguments.map Placed.source :=
    List.mem_append_right _ (List.mem_map_of_mem mem)
  exact (infix_intercalate [','] inside).length_le

theorem readable_call (reachable : registry.Reachable) {negate : Bool}
    (takes : callee.Takes registry arguments.length) (writes : callee.WritesLiterals literals)
    (readable : ∀ argument ∈ arguments, PlacedReadable registry argument) :
    Readable registry
      (.call negate callee (arguments.map fun argument => argument.tree.unslotted))
      (negation negate ++ callee.name.toList ++
        ('(' :: argumentsText literals arguments ++ [')'])) := by
  have identifier := isIdentifier_name reachable takes
  have isPiece := isPiece_of_readable writes readable
  have contained : SelfContained 1 (argumentsText literals arguments) :=
    contained_intercalate fun source mem => (isPiece source mem).contained
  obtain ⟨cut, shown⟩ := pieces_argumentsText writes readable (pos_of_takes takes)
  have trimmed : Trimmed (negation negate ++ callee.name.toList ++
      ('(' :: argumentsText literals arguments ++ [')'])) := by
    rw [List.append_assoc]
    exact trimmed_negation negate
      ((trimmed_of_isIdentifier identifier).append (.enclosed (by decide) (by decide) _))
  have noEquals : (negation negate ++ callee.name.toList ++
      ('(' :: argumentsText literals arguments ++ [')'])).head? ≠ some '=' := by
    cases negate with
    | false => exact head_ne_of_isIdentifier identifier (by decide)
    | true => simp [negation]
  have nameContained : SelfContained 0 callee.name.toList :=
    .ofWords fun _ mem => .inl (isWordChar_of_isIdentifier identifier mem)
  refine .of_operand rfl
    (((contained_negation negate).append nameContained).append (contained_parentheses contained))
    trimmed (.of_trimmed trimmed noEquals) fun depth enough after ends => ?_
  have read : readCallOf registry (readNode registry depth) (.ofList callee.name.toList)
      (pieces (argumentsText literals arguments)) =
        .ok (callee, arguments.map fun argument => argument.tree.unslotted) := ?_
  · have taken : readOperand registry (readNode registry depth) (_ ++ after) = _ :=
      readOperand_call (if negate then 1 else 0) identifier (encloses_parentheses contained) shown
        read
    rwa [← negation_eq_replicate, negates_negation] at taken
  rw [cut, String.ofList_toList]
  have count : (arguments.map Placed.text).length = arguments.length := List.length_map _
  refine readCallOf_name reachable (count ▸ takes) writes ?_
  rw [List.forall₂_map_left_iff, List.forall₂_map_right_iff, List.forall₂_same]
  intro argument inList
  have shorter : argument.source.length ≤ (argumentsText literals arguments).length :=
    length_source_le inList
  simp only [List.length_append, List.length_cons] at enough
  exact (readable argument inList).read_text (by omega)

end FieldRules.Expr
