import FieldRules.Expr.Operator
import FieldRules.Number.Numeral
import FieldRules.Text.Blank
import FieldRules.Text.Word

/-!
# Tokens

The smallest readers of the expression language.  Each takes one token off the
front of a text and returns it with the rest, or nothing when the text starts
otherwise.
-/

namespace FieldRules.Expr

open FieldRules.Text

/-- The characters with which an operator can start. -/
def operatorChars : List Char :=
  ['+', '-', '*', '/', '%', '<', '>', '=', '!', '&', '|']

/-- An operand may end at the end of the text, at a blank character, and where an
operator may start. -/
def atTerminator : List Char → Bool
  | [] => true
  | c :: _ => isBlank c || operatorChars.contains c

/-- Take a given text off the front. -/
def readSymbol : (symbol text : List Char) → Option (List Char)
  | [], text => some text
  | _ :: _, [] => none
  | s :: symbol, c :: text => if s = c then readSymbol symbol text else none

/-- The operators in the order in which they are tried: those of two characters
first. -/
def operatorOrder : List Operator :=
  [.eq, .ne, .le, .ge, .and, .or, .lt, .gt, .add, .sub, .mul, .div, .rem]

/-- Read a binary operator. -/
def readOperator (text : List Char) : Option (Operator × List Char) :=
  operatorOrder.findSome? fun operator =>
    (readSymbol operator.symbol text).map (operator, ·)

/-- Read a word that must be followed by a terminator. -/
def readKeyword (word text : List Char) : Option (List Char) :=
  (readSymbol word text).filter atTerminator

/-- Read an identifier. -/
def readIdentifier : List Char → Option (List Char × List Char)
  | [] => none
  | c :: rest =>
      if isIdentifierStart c then
        some (c :: rest.takeWhile isWordChar, rest.dropWhile isWordChar)
      else none

/-- Count the `!` at the front. -/
def readBangs (text : List Char) : Nat × List Char :=
  ((text.takeWhile (· = '!')).length, text.dropWhile (· = '!'))

/-- An odd number of `!` negates. -/
def negates (bangs : Nat) : Bool :=
  bangs % 2 = 1

end FieldRules.Expr
