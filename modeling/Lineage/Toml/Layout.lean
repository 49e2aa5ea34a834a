import Lineage.Text.Basic
import Lineage.Toml.Fault
import Lineage.Unicode.Word

/-!
# Logical lines of a configuration text

Before its statements are read, a configuration text is brought into lines of which each holds one
statement: comments become blanks, and the line feeds inside an array become blanks as well, so that
an array stands on one line. A line feed within a string of three quotes stays, save the one right
after the opening quotes, which disappears into them. The same pass checks the form of the keys:
every line that is not a header or the rest of an array or a string starts with a key and an equals
sign.
-/

namespace Lineage.Toml

/-- How far the key at the start of a line has been read. -/
inductive KeyProgress where
  /-- No key is being read. -/
  | outside
  /-- Within a part of the key. -/
  | within
  /-- After a part of the key. -/
  | after
  deriving Repr, DecidableEq

/-- What is known of the text read so far. -/
structure Layout where
  /-- The text as laid out, last character first. -/
  written : List Char := []
  /-- What the text is taken to be preceded by, last character first. -/
  before : List Char := []
  key : KeyProgress := .outside
  /-- The key has a dot. -/
  dotted : Bool := false
  /-- The quote of the string that is open. -/
  quote : Option Char := none
  /-- A string of three quotes is open. -/
  tripled : Bool := false
  /-- A header in single brackets is open. -/
  header : Bool := false
  /-- A header in double brackets is open. -/
  arrayHeader : Bool := false
  /-- How many arrays are open. -/
  nesting : Int := 0
  /-- Nothing but spaces and tabs has been read of the line. -/
  lineStart : Bool := true
  /-- The rest of the line is a comment. -/
  comment : Bool := false

namespace Layout

/-- What precedes the current character, last character first. -/
def preceding (layout : Layout) : List Char :=
  if layout.written.isEmpty then layout.before else layout.written

/-- The character right before the current one. -/
def previous (layout : Layout) : Option Char := layout.preceding.head?

/-- The number of backslashes right before the current character, after `skip` others. -/
def backslashes (layout : Layout) (skip : Nat) : Nat :=
  ((layout.preceding.drop skip).takeWhile (· = '\\')).length

/-- The character as laid out. -/
def emit (layout : Layout) (c : Char) : Layout := { layout with written := c :: layout.written }

/-- How many copies of a quote stand right before the current character, two at most. -/
def quotesBefore (layout : Layout) (quote : Char) : Nat :=
  ((layout.preceding.take 2).takeWhile (· = quote)).length

/-- A quote, which may open or close a string. -/
def atQuote (layout : Layout) (quote : Char) : Layout :=
  let before := layout.quotesBefore quote
  let escaped := quote = '"' && before ≠ 1 && layout.backslashes before % 2 = 1
  if escaped then
    { layout with quote := if layout.quote.isSome then some quote else none }
  else if before = 2 then
    { layout with
      tripled := !layout.tripled
      quote := if layout.tripled then none else some quote }
  else { layout with quote := if layout.quote.isSome then none else some quote }

/-- A quote counts unless a string in the other kind of quotes is open. -/
def quoteCounts (layout : Layout) (c : Char) : Bool :=
  (c = '\'' && layout.quote ≠ some '"') || (c = '"' && layout.quote ≠ some '\'')

/-- An opening bracket outside strings and headers. -/
def atOpening (layout : Layout) (next : Option Char) : Layout :=
  if layout.quote.isSome || layout.header || layout.arrayHeader then layout
  else if layout.lineStart then
    if next = some '[' then { layout with arrayHeader := true } else { layout with header := true }
  else { layout with nesting := layout.nesting + 1 }

/-- A closing bracket outside strings. -/
def atClosing (layout : Layout) : Layout :=
  if layout.quote.isSome then layout
  else if layout.header then { layout with header := false }
  else if layout.arrayHeader then
    if layout.previous = some ']' then { layout with arrayHeader := false } else layout
  else { layout with nesting := layout.nesting - 1 }

/--
A line feed within a string of three quotes. Right after two quotes it becomes a quote itself, and
the first of three gives way, so that the string starts with the next line.
-/
def atLineInString (layout : Layout) : Layout :=
  match layout.written with
  | a :: b :: rest =>
      if (a = '\'' || a = '"') && b = a then
        match rest with
        | c :: rest => { layout with written := a :: a :: b :: (if c = a then ' ' else c) :: rest }
        | [] => { layout with written := [a, a, b] }
      else layout.emit '\n'
  | _ => layout.emit '\n'

/-- The end of a line. -/
def atLineEnd (layout : Layout) : Except Fault Layout :=
  if layout.tripled then .ok layout.atLineInString
  else if layout.quote.isSome then .error .malformed
  else if layout.nesting ≠ 0 then .ok (layout.emit ' ')
  else .ok { layout.emit '\n' with lineStart := true }

/-- The first character of a line other than a space or a tab starts a key, unless in a header. -/
def atLineStart (layout : Layout) (c : Char) : Except Fault Layout :=
  if layout.lineStart && c ≠ ' ' && c ≠ '\t' then
    if layout.header || layout.arrayHeader then .ok { layout with lineStart := false }
    else if c = '=' then .error .malformed
    else .ok { layout with lineStart := false, key := .within }
  else .ok layout

/-- A character that belongs to no key. -/
def atText (layout : Layout) (c : Char) (next : Option Char) : Except Fault Layout :=
  let layout := if layout.quoteCounts c then layout.atQuote c else layout
  if c = '#' && layout.quote.isNone && !layout.header && !layout.arrayHeader then
    .ok { layout.emit ' ' with comment := true }
  else
    let layout := if c = '[' then layout.atOpening next else layout
    let layout := if c = ']' then layout.atClosing else layout
    if c = '\n' then layout.atLineEnd
    else (layout.atLineStart c).map fun layout => layout.emit c

/-- Goes on with the next part of a dotted key if it follows at once. -/
def afterDot (layout : Layout) (c : Char) (next : Option Char) : Except Fault Layout :=
  match next with
  | none => .error .cutShort
  | some next =>
      .ok { layout.emit c with
        key := if !Unicode.isBlank next && next ≠ '.' then .within else layout.key }

/-- The equals sign after a key. -/
def atEquals (layout : Layout) (c : Char) (next : Option Char) : Except Fault Layout :=
  if c = '=' then ({ layout with key := .outside, dotted := false } : Layout).atText c next
  else .error .malformed

/-- A character of a key. -/
def atKey (layout : Layout) (c : Char) (next : Option Char) : Except Fault Layout :=
  if c = '\n' then .error .malformed
  else
    match layout.quote with
    | some quote =>
        if c = quote && layout.backslashes 0 % 2 = 0 then
          .ok { layout.emit c with key := .after, quote := none }
        else .ok (layout.emit c)
    | none =>
        if layout.key = .within then
          if Unicode.isBlank c then .ok { layout.emit c with key := .after }
          else if c = '.' then .ok { layout.emit c with dotted := true }
          else if Unicode.isWord c || c = '-' then .ok (layout.emit c)
          else if layout.dotted && layout.previous = some '.' && (c = '"' || c = '\'') then
            .ok { layout.emit c with quote := some c }
          else layout.atEquals c next
        else if Unicode.isBlank c then
          if layout.dotted then layout.afterDot c next else .ok (layout.emit c)
        else if c = '.' then ({ layout with dotted := true } : Layout).afterDot c next
        else layout.atEquals c next

/-- The next character. -/
def step (layout : Layout) (c : Char) (next : Option Char) : Except Fault Layout :=
  if layout.comment then
    if c = '\n' then ({ layout with comment := false } : Layout).atText c next
    else .ok (layout.emit ' ')
  else if layout.key = .outside then layout.atText c next
  else layout.atKey c next

/-- All characters of a text, one after the other. -/
def run : Layout → List Char → Except Fault Layout
  | layout, [] => .ok layout
  | layout, c :: text =>
      match layout.step c text.head? with
      | .ok layout => layout.run text
      | .error fault => .error fault

end Layout

/-- The logical lines of a text. -/
def logicalLines (text : List Char) : Except Fault (List (List Char)) :=
  match Layout.run { before := text.reverse } text with
  | .error fault => .error fault
  | .ok layout =>
      if layout.key ≠ .outside || layout.quote.isSome then .error .malformed
      else .ok (Text.lines layout.written.reverse)

end Lineage.Toml
