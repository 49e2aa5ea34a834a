import Lineage.Text.Basic
import Lineage.Text.Hexadecimal
import Lineage.Toml.Fault
import Lineage.Unicode.Digit
import Lineage.Value

/-!
# Strings and integers in configuration texts

A string stands in double or single quotes, one or three of them; escapes count in double quotes
only. An integer may have a sign, underscores between its digits and one of the base marks `0x`,
`0o` and `0b`. Its digits may be those of any script; a decimal integer has as many of them at most
as are written out.
-/

namespace Lineage.Toml

/-! ## Strings -/

/-- The character that a one-letter escape stands for. -/
def simpleEscape? (c : Char) : Option Char :=
  match c with
  | '0' => some '\x00'
  | 'b' => some '\x08'
  | 'f' => some '\x0c'
  | 'n' => some '\n'
  | 'r' => some '\r'
  | 't' => some '\t'
  | '"' => some '"'
  | _ => none

/-- A letter that announces the digits of a code point. -/
def isCodeMark (c : Char) : Bool := c = 'u' || c = 'U'

/--
The parts of a text between its quotes show where the string ends: with the first part that ends in
no escape, or with the last of three quotes. `quotes` counts the empty parts met in a string of
three quotes.
-/
def endsOnce (tripled closed : Bool) (quotes : Nat) : (parts : List (List Char)) → Bool
  | [] => true
  | part :: parts =>
      if part.isEmpty then
        if tripled then endsOnce tripled closed (quotes + 1) parts
        else endsOnce tripled true quotes parts
      else if Text.finalBackslashes part % 2 = 1 then endsOnce tripled closed quotes parts
      else if closed then false
      else if !tripled || quotes > 1 then endsOnce tripled true quotes parts
      else endsOnce tripled closed 0 parts

/-- Nothing follows the end of the string. -/
def isOneString (quote : Char) (text : List Char) : Bool :=
  match Text.fields quote text with
  | [] :: [] :: parts => endsOnce true false 0 parts
  | parts => endsOnce false false 0 parts

/-- Every backslash in the parts after the first starts an escape; `pending` is one that does. -/
def escapesKnown (pending : Bool) : (parts : List (List Char)) → Bool
  | [] => true
  | [] :: parts => escapesKnown (!pending) parts
  | (c :: _) :: parts =>
      ((simpleEscape? c).isSome || isCodeMark c || pending) && escapesKnown false parts

/-- The character that hexadecimal digits stand for. -/
def codePoint (digits : List Char) : Except Fault Char :=
  match digits.mapM Text.hexValue? with
  | none => .error .malformed
  | some [] => .error .cutShort
  | some [0xD] => .error .cutShort
  | some (first :: second :: others) =>
      if first = 0xD && 8 ≤ second then .error .malformed
      else
        let code := (first :: second :: others).foldl (fun code digit => 16 * code + digit) 0
        if code.isValidChar then .ok (Char.ofNat code)
        else if code < 0x80000000 then .error .malformed
        else .error .codeTooLarge
  | some [digit] => .ok (Char.ofNat digit)

/-- The parts after a code mark joined to what precedes them, each with its digits decoded. -/
def decodeParts (mark : List Char) (width : Nat) :
    (done : List Char) → (literal : Bool) → (parts : List (List Char)) → Except Fault (List Char)
  | done, _, [] => .ok done
  | done, true, part :: parts =>
      decodeParts mark width (done ++ mark ++ part) (Text.finalBackslashes part % 2 = 1) parts
  | done, false, part :: parts =>
      match codePoint (part.take width) with
      | .error fault => .error fault
      | .ok c => decodeParts mark width (done ++ c :: part.drop width) false parts

/-- Decodes the escapes with one of the code marks. -/
def decodeCodes (mark : List Char) (width : Nat) (text : List Char) : Except Fault (List Char) :=
  match Text.pieces mark text with
  | [] => .ok text
  | [_] => .ok text
  | first :: parts => decodeParts mark width first (Text.finalBackslashes first % 2 = 1) parts

/-- Decodes the one-letter escapes. -/
def unescape : List Char → Except Fault (List Char)
  | '\\' :: c :: text =>
      match simpleEscape? c with
      | some value => (unescape text).map (value :: ·)
      | none =>
          if c = '\\' then (unescape text).map ('\\' :: ·)
          else if isCodeMark c then (unescape text).map fun rest => '\\' :: c :: rest
          else .error .malformed
  | c :: text => (unescape text).map (c :: ·)
  | [] => .ok []

/-- Decodes all escapes of a string in double quotes. -/
def decodeEscapes (text : List Char) : Except Fault (List Char) := do
  if escapesKnown false ((Text.fields '\\' text).drop 1) then
    let text ← decodeCodes ['\\', 'u'] 4 text
    let text ← decodeCodes ['\\', 'U'] 8 text
    unescape text
  else .error .malformed

/-- The text between the quotes, one or three at either end. -/
def unquote (quote : Char) (text : List Char) : List Char :=
  let tripled : Bool :=
    match text with
    | [_, b] => b = quote
    | _ :: b :: c :: _ => b = quote && c = quote
    | _ => false
  let text := if tripled then (text.drop 2).reverse.drop 2 |>.reverse else text
  (text.drop 1).dropLast

/-- The string that a text starting with a quote stands for. -/
def string (quote : Char) (text : List Char) : Except Fault (List Char) :=
  if isOneString quote (text.drop 1) then
    if quote = '"' then (decodeEscapes text).map (unquote quote) else .ok (unquote quote text)
  else .error .malformed

/-! ## Integers -/

/-- A character of a number: digits of any script count as those from `0` to `9`. -/
def numeralChar (c : Char) : Char :=
  match Unicode.digitValue? c with
  | some value => Char.ofNat (0x30 + value)
  | none => c

/-- Blanks that may surround a number. The marks between groups and records are not among them. -/
def isNumberBlank (c : Char) : Bool := Unicode.isBlank c && !(0x1C ≤ c.toNat && c.toNat ≤ 0x1F)

/-- The characters of a number without the blanks around them. -/
def numeral (text : List Char) : List Char := (Text.trim isNumberBlank text).map numeralChar

/--
The form of a number: no underscore at either end or beside another, a dot or a sign, and no zero in
front of other digits.
-/
def isProperNumber (text : List Char) : Bool :=
  let text := Text.strip text
  match text with
  | [] => false
  | first :: rest =>
      let edges := first ≠ '_' && text.getLast? ≠ some '_'
      let dots := !Text.occurs ['_', '.'] text && !Text.occurs ['.', '_'] text
      let zero : Bool :=
        match rest with
        | [] => true
        | second :: _ => first ≠ '0' || ['.', 'o', 'b', 'x'].contains second
      let unsigned := if first = '+' || first = '-' then rest else text
      let signedZero : Bool :=
        match unsigned with
        | '0' :: second :: _ => !(first = '+' || first = '-') || second = '.'
        | _ => true
      edges && dots && (rest.isEmpty || (zero && signedZero && !Text.occurs ['_', '_'] unsigned))

/-- The value of digits in a base. -/
def digitsValue? (base : Nat) (digits : List Char) : Option Nat :=
  if digits.isEmpty then none
  else
    digits.foldlM (fun value digit =>
      match Text.hexValue? digit with
      | some d => if d < base then some (base * value + d) else none
      | none => none) 0

/-- The value of decimal digits, unless there are too many of them. -/
def decimalValue? (digits : List Char) : Option Nat :=
  if digits.length ≤ Scalar.digitLimit then digitsValue? 10 digits else none

/-- The value of a natural number, whose base mark is part of it. -/
def natural? (text : List Char) : Option Nat :=
  match text with
  | '0' :: mark :: digits =>
      if mark = 'x' || mark = 'X' then digitsValue? 16 digits
      else if mark = 'o' || mark = 'O' then digitsValue? 8 digits
      else if mark = 'b' || mark = 'B' then digitsValue? 2 digits
      else if text.all (· = '0') then decimalValue? text
      else none
  | _ => decimalValue? text

/-- A sign and what follows it. -/
def signed (text : List Char) : Bool × List Char :=
  match text with
  | '-' :: rest => (true, rest)
  | '+' :: rest => (false, rest)
  | _ => (false, text)

/-- An exponent makes a number no integer; the letter `e` is a digit only after a small `x`. -/
def hasExponent (text : List Char) : Bool :=
  !text.contains 'x' && text.any fun c => c = 'e' || c = 'E'

/-- The integer that a text stands for. A second sign is read after the first and its blanks. -/
def integer? (text : List Char) : Option Int :=
  let outer := signed text
  let digits := outer.2.filter (· ≠ '_')
  if hasExponent digits then none
  else
    let inner := signed (numeral digits)
    (natural? inner.2).map fun value =>
      let value : Int := if inner.1 then -value else value
      if outer.1 then -value else value

/-! ## Numbers that stand right after the equals sign -/

/-- Digits with single underscores between them, and what follows. -/
def afterDigits? : List Char → Option (List Char)
  | c :: '_' :: d :: text =>
      if c.isDigit then if d.isDigit then afterDigits? (d :: text) else some ('_' :: d :: text)
      else none
  | c :: text => if c.isDigit then some ((afterDigits? text).getD text) else none
  | [] => none

/-- What follows an optional exponent. -/
def afterExponent (text : List Char) : List Char :=
  match text with
  | e :: rest =>
      if e = 'e' || e = 'E' then (afterDigits? (signed rest).2).getD text else text
  | [] => []

/-- The decimal integer that a text stands for; single underscores may stand between its digits. -/
def wholeNumber? (text : List Char) : Option Int :=
  let (negative, digits) := signed (numeral text)
  if afterDigits? digits = some [] then
    (decimalValue? (digits.filter (· ≠ '_'))).map fun value =>
      if negative then -(value : Int) else value
  else none

/-- The text is a decimal number, with or without a fraction and an exponent. -/
def isDecimal (text : List Char) : Bool :=
  let text := (signed (numeral text)).2
  let lower := text.map Char.toLower
  if lower = "inf".toList || lower = "infinity".toList || lower = "nan".toList then true
  else
    match afterDigits? text with
    | some ('.' :: rest) => (afterExponent ((afterDigits? rest).getD rest)).isEmpty
    | some rest => (afterExponent rest).isEmpty
    | none =>
        match text with
        | '.' :: rest =>
            match afterDigits? rest with
            | some rest => (afterExponent rest).isEmpty
            | none => false
        | _ => false

end Lineage.Toml
