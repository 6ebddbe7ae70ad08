import FieldRules.Text.Hex
import FieldRules.Text.Printable

/-!
# Quoted text

Messages show a text between double quotes and a character between single
quotes.  Inside, the quote itself and the backslash are escaped with a
backslash, four control characters have letters of their own, and every other
character that cannot be seen is written as its code point in braces.
-/

namespace FieldRules.Text

/-- A code point written out: `u`, then its hexadecimal digits in braces. -/
def codePointEscape (c : Char) : List Char :=
  ['\\', 'u', '{'] ++ hexDigits c.toNat ++ ['}']

/-- One character inside the given quotes. -/
def escapeInside (quote c : Char) : List Char :=
  if c = '\x00' then ['\\', '0']
  else if c = '\t' then ['\\', 't']
  else if c = '\r' then ['\\', 'r']
  else if c = '\n' then ['\\', 'n']
  else if c = '\\' || c = quote then ['\\', c]
  else if isPrintable c then [c]
  else codePointEscape c

/-- A text between double quotes. -/
def quotedText (text : List Char) : List Char :=
  '"' :: text.flatMap (escapeInside '"') ++ ['"']

/-- A character between single quotes. -/
def quotedChar (c : Char) : List Char :=
  '\'' :: escapeInside '\'' c ++ ['\'']

/-- A string between double quotes. -/
def quoted (text : String) : String :=
  .ofList (quotedText text.toList)

end FieldRules.Text
