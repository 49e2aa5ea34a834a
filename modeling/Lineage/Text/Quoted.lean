import Lineage.Text.Hexadecimal
import Lineage.Unicode.Printable

/-!
# Quoted texts

A text shown inside a message stands in quotes: single ones, unless it contains a single quote and
no double quote. A backslash and the quote in use are escaped, and so is every character that is
not printable, by the shortest of the forms `\xhh`, `\uhhhh` and `\Uhhhhhhhh` that holds it.
-/

namespace Lineage.Text

/-- The escape that names a character by its code point. -/
def codeEscape (c : Char) : List Char :=
  if c.toNat < 0x100 then '\\' :: 'x' :: hexDigits 2 c.toNat
  else if c.toNat < 0x10000 then '\\' :: 'u' :: hexDigits 4 c.toNat
  else '\\' :: 'U' :: hexDigits 8 c.toNat

/-- One character within quotes of the given kind. -/
def quotedChar (quote c : Char) : List Char :=
  if c = quote ∨ c = '\\' then ['\\', c]
  else if c = '\t' then ['\\', 't']
  else if c = '\n' then ['\\', 'n']
  else if c = '\r' then ['\\', 'r']
  else if Unicode.isPrintable c then [c]
  else codeEscape c

/-- The quote that a text is shown in. -/
def quoteFor (text : List Char) : Char :=
  if text.contains '\'' && !text.contains '"' then '"' else '\''

/-- The text in quotes. -/
def quoted (text : String) : String :=
  let chars := text.toList
  let quote := quoteFor chars
  String.ofList (quote :: chars.flatMap (quotedChar quote) ++ [quote])

end Lineage.Text
