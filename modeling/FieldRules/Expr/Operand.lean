import FieldRules.Expr.Node
import FieldRules.Expr.SyntaxError
import FieldRules.Expr.Token
import FieldRules.Text.Delimited
import FieldRules.Text.Pieces

/-!
# Operands

Seven readers are tried in order at the start of an operand.  Each of them
takes an operand of its kind off the front of the text, or reports that the
text starts otherwise; an error means that the operand is of the reader's kind
and malformed inside.

Texts inside brackets are cut out first and read on their own by the reader of
whole expressions, which the readers take as an argument.
-/

namespace FieldRules.Expr

open FieldRules.Text

variable [RegexLibrary]

/-- The result of reading: a value, or what is wrong with the text. -/
abbrev Reading (α : Type) := Except SyntaxError α

/-- What a reader takes off the front of a text, if it applies, and the rest. -/
abbrev Taken (α : Type) := Option (α × List Char)

/-- How whole expressions are read. -/
abbrev ExpressionReader := List Char → Reading Node

/-! ## Groups -/

/-- Read a group `!…(expression)`.  A closing parenthesis with `$` behind it ends
the path of a selector instead. -/
def readGroup (expression : ExpressionReader) (text : List Char) : Reading (Taken Node) :=
  let (bangs, rest) := readBangs text
  match scanPaired '(' ')' rest with
  | none => .ok none
  | some (content, after) =>
      if after.head? = some '$' then .ok none
      else do
        let inner ← expression content
        .ok (some (.group (negates bangs) inner, after))

/-! ## Calls -/

/-- Check the number of arguments of a function. -/
def checkArity (function : String) (arity : Arity) (arguments : List (List Char)) :
    Reading Unit :=
  if arity.admits arguments.length then .ok ()
  else .error (.wrongArity function arity arguments.length)

/-- Read all arguments, from left to right. -/
def readAll (expression : ExpressionReader) : List (List Char) → Reading (List Node)
  | [] => .ok []
  | argument :: arguments => do
      let node ← expression argument
      let nodes ← readAll expression arguments
      .ok (node :: nodes)

/-- Read all arguments; without any, the argument is the current value. -/
def readAllOrCurrent (expression : ExpressionReader) (arguments : List (List Char)) :
    Reading (List Node) :=
  if arguments.isEmpty then .ok [.current] else readAll expression arguments

/-- The content of a text that is exactly one quoted string, blanks aside. -/
def quotedLiteral? (text : List Char) : Option (List Char) :=
  match scanPaired '\'' '\'' (trim text) with
  | some (content, rest) => if isBlankText rest then some content else none
  | none => none

/-- The pattern that the first argument of `regexp` spells out. -/
def readPattern (argument : List Char) : Reading Pattern :=
  match quotedLiteral? argument with
  | none => .error (.literalRequired "regexp")
  | some content =>
      match Pattern.ofText? (.ofList content) with
      | some pattern => .ok pattern
      | none => .error (.invalidPattern (.ofList content))

/-- The arity of the functions of the language. -/
def builtinArity? (name : String) : Option Arity :=
  [("len", ⟨0, some 1⟩), ("regexp", ⟨1, some 2⟩), ("sprintf", ⟨1, none⟩),
    ("in", ⟨1, none⟩), ("range", ⟨2, some 2⟩)].lookup name

/-- The arity of registered predicates. -/
def predicateArity : Arity := ⟨0, some 1⟩

/-- Read a call from its name and the texts of its arguments. -/
def readCallOf (registry : Registry) (expression : ExpressionReader) (name : String)
    (arguments : List (List Char)) : Reading (Callee × List Node) :=
  match builtinArity? name with
  | some arity => do
      checkArity name arity arguments
      if name = "len" then
        .ok (.len, ← readAllOrCurrent expression arguments)
      else if name = "regexp" then
        let pattern ← readPattern (arguments.headD [])
        .ok (.regexp pattern, ← readAllOrCurrent expression arguments.tail)
      else
        let nodes ← readAll expression arguments
        .ok (if name = "sprintf" then .sprintf else if name = "in" then .oneOf else .range, nodes)
  | none =>
      match registry.find? name with
      | none => .error (.unknownFunction name)
      | some predicate => do
          checkArity name predicateArity arguments
          .ok (.predicate name predicate, ← readAllOrCurrent expression arguments)

/-- Read a call `!…name(arguments)`. -/
def readCall (registry : Registry) (expression : ExpressionReader) (text : List Char) :
    Reading (Taken Node) :=
  let (bangs, rest) := readBangs text
  match readIdentifier rest with
  | none => .ok none
  | some (name, rest) =>
      if rest.head? ≠ some '(' then .ok none
      else
        match scanPaired '(' ')' rest with
        | none => .error (.unmatched '(' (clip text))
        | some (content, after) =>
            let arguments := pieces content
            if arguments.any List.isEmpty then .error (.expectedOperand (clip content))
            else do
              let (callee, nodes) ← readCallOf registry expression (.ofList name) arguments
              .ok (some (.call (negates bangs) callee nodes, after))

/-! ## Literals -/

/-- Read a string literal. -/
def readText (text : List Char) : Taken Node :=
  (scanPaired '\'' '\'' text).map fun (content, after) => (.text (.ofList content), after)

/-- Read a number literal with a terminator behind it. -/
def readNumber (text : List Char) : Taken Node :=
  match Number.readLiteral text with
  | some (numeral, after) =>
      if atTerminator after then some (.number numeral.toFloat, after) else none
  | none => none

/-- Read `true` or `false`; an odd number of `!` in front exchanges them. -/
def readBool (text : List Char) : Taken Node :=
  let (bangs, rest) := readBangs text
  match readKeyword "true".toList rest with
  | some after => some (.bool (!negates bangs), after)
  | none =>
      match readKeyword "false".toList rest with
      | some after => some (.bool (negates bangs), after)
      | none => none

/-- Read `nil`. -/
def readNil (text : List Char) : Taken Node :=
  (readKeyword "nil".toList text).map (.nil, ·)

/-! ## Selectors -/

/-- The head of a selector ends at a subscript or at a terminator. -/
def endsSelectorHead (text : List Char) : Bool :=
  text.head? = some '[' || atTerminator text

/-- Read the path in front of `$`: none at all, or one in parentheses, which may
be empty.  A parenthesis that holds no path rules a selector out. -/
def readPath (text : List Char) : Option (Option (List Char) × List Char) :=
  if text.head? = some '(' then
    match scanPaired '(' ')' text with
    | some (content, after) =>
        if content.isEmpty then some (none, after)
        else if isFieldPath content then some (some content, after)
        else none
    | none => none
  else some (none, text)

/-- Read `$k` or `$v` behind its `$`. -/
def readElementMark : List Char → Taken Origin
  | 'k' :: rest => if endsSelectorHead rest then some (.key, rest) else none
  | 'v' :: rest => if endsSelectorHead rest then some (.value, rest) else none
  | _ => none

/-- Read the start of a selector, from the path to the letter behind `$`.  A path
and a letter exclude each other.  Slots are given later. -/
def readOrigin (text : List Char) : Option (Origin × List Char) := do
  let (path, rest) ← readPath text
  let rest ← readSymbol ['$'] rest
  match path, readElementMark rest with
  | none, some marked => some marked
  | none, none => some (.current, rest)
  | some path, none => some (.field (.ofList path) 0, rest)
  | some _, some _ => none

/-- Read subscripts `[expression]…`, `steps` of them at most.  A bracket that is
not closed or blank inside rules a selector out. -/
def readSubscripts (expression : ExpressionReader) :
    (steps : Nat) → List Char → Reading (Taken (List Node))
  | 0, text => .ok (some ([], text))
  | steps + 1, text =>
      if text.head? ≠ some '[' then .ok (some ([], text))
      else
        match scanPaired '[' ']' text with
        | none => .ok none
        | some (content, after) =>
            if isBlankText content then .ok none
            else do
              let subscript ← expression content
              match ← readSubscripts expression steps after with
              | none => .ok none
              | some (subscripts, after) => .ok (some (subscript :: subscripts, after))

/-- Read a selector with a terminator behind it. -/
def readSelector (expression : ExpressionReader) (text : List Char) : Reading (Taken Node) :=
  match readOrigin text with
  | none => .ok none
  | some (origin, rest) => do
      match ← readSubscripts expression rest.length rest with
      | none => .ok none
      | some (subscripts, after) =>
          if atTerminator after then .ok (some (.selector origin subscripts, after)) else .ok none

/-! ## Operands -/

/-- What is wrong with a text that no reader takes: a parenthesis or a quote
behind its `!` that is not closed, or simply no operand. -/
def noOperand (text : List Char) : SyntaxError :=
  let body := (readBangs text).2
  let open? : Option Char :=
    match body with
    | '(' :: _ => if (scanPaired '(' ')' body).isNone then some '(' else none
    | '\'' :: _ => if (scanPaired '\'' '\'' body).isNone then some '\'' else none
    | _ => none
  match open? with
  | some opening => .unmatched opening (clip text)
  | none => .expectedOperand (clip text)

/-- The readers in the order in which they are tried.  Groups come first, so that
`(x)` is never taken for a path. -/
def operandReaders (registry : Registry) (expression : ExpressionReader) :
    List (List Char → Reading (Taken Node)) :=
  [readGroup expression, readCall registry expression,
    fun text => .ok (readText text), fun text => .ok (readNumber text),
    fun text => .ok (readBool text), fun text => .ok (readNil text),
    readSelector expression]

/-- Let the first reader that applies take an operand. -/
def readFirst (text : List Char) : List (List Char → Reading (Taken Node)) → Reading (Node × List Char)
  | [] => .error (noOperand text)
  | reader :: readers => do
      match ← reader text with
      | some operand => .ok operand
      | none => readFirst text readers

/-- Read an operand. -/
def readOperand (registry : Registry) (expression : ExpressionReader) (text : List Char) :
    Reading (Node × List Char) :=
  readFirst text (operandReaders registry expression)

end FieldRules.Expr
