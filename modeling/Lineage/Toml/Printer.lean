import Lineage.Text.Basic
import Lineage.Toml.Fault
import Lineage.Value

/-!
# Writing configuration texts

A table is written as its plain entries first and then its tables, each under a header with its full
name and set off by an empty line; tables within tables come after all tables of the level above.
Arrays of tables follow the plain entries of the table they stand in. Entries with a null value are
left out. Of two tables with the same written name the later one takes the place of the other.

A string is written in double quotes with the escapes of a quoted text. Escapes of two digits do not
exist in a configuration text: at such a place the digits stay, with a mark that depends on the
backslashes before it, and a text that starts there cannot be written.
-/

namespace Lineage.Toml

/-! ## Strings -/

/-- Each pair of backslashes as a single one. -/
def halveBackslashes : List Char → List Char
  | '\\' :: '\\' :: text => '\\' :: halveBackslashes text
  | c :: text => c :: halveBackslashes text
  | [] => []

/-- What stands between a text and the two digits of a short escape that followed it. -/
def shortMark (text : List Char) : List Char :=
  let final := Text.finalBackslashes text
  let inner := min final (text.length - 1)
  if final = 0 || inner % 2 = 1 then ['x'] else ['u', '0', '0']

/-- The parts around short escapes put together; an empty part is passed over. -/
def joinShort (done : List Char) : (parts : List (List Char)) → Except Fault (List Char)
  | [] => .ok done
  | part :: parts =>
      if done.isEmpty then
        match parts with
        | [] => .error .cutShort
        | next :: parts =>
            let part := halveBackslashes part
            joinShort (part ++ shortMark part ++ next) parts
      else
        let done := halveBackslashes done
        joinShort (done ++ shortMark done ++ part) parts

/-- A string in double quotes. -/
def printString (text : String) : Except Fault (List Char) := do
  let escaped := text.toList.flatMap (Text.quotedChar '"')
  let inner ←
    match Text.pieces ['\\', 'x'] escaped with
    | [] => .ok []
    | first :: parts => joinShort first parts
  return '"' :: inner ++ ['"']

/-- A key that needs no quotes; a line feed at its end does not count. -/
def isPlainKey (key : List Char) : Bool :=
  let name := if key.getLast? = some '\n' then key.dropLast else key
  !name.isEmpty && name.all fun c => c.isAlphanum || c = '_' || c = '-'

/-- A key, in quotes unless it is plain. -/
def printKey (key : String) : Except Fault (List Char) :=
  if isPlainKey key.toList then .ok key.toList else printString key

/-! ## Values -/

/-- The written form of a value, where one is needed. -/
def writtenForm (value : Value) : Except Fault String :=
  match value.written? with
  | some text => .ok text
  | none => .error .noForm

/-- The written form of a fraction, whose exponent loses one zero in front of it. -/
def shortExponent : List Char → List Char
  | 'e' :: sign :: '0' :: text =>
      if sign = '+' || sign = '-' then 'e' :: sign :: text else 'e' :: sign :: '0' :: text
  | c :: text => c :: shortExponent text
  | [] => []

/-- The written form of a point of time, with the mark for universal time if it has no distance. -/
def joinedPoint : List Char → List Char
  | [] => []
  | ['+', '0', '0', ':', '0', '0'] => ['Z']
  | c :: text => (if c = ' ' then 'T' else c) :: joinedPoint text

/-- How a measure stands in a configuration text, given its written form. -/
def measureChars : (kind : Measure.Kind) → (written : List Char) → List Char
  | .fraction, written => shortExponent written
  | .date, written => joinedPoint written
  | .time, written => written

/-- A value without parts; a null stands as a string of its written form. -/
def printScalar (value : Scalar) : Except Fault (List Char) :=
  match value with
  | .null => do printString (← writtenForm (.scalar .null))
  | .bool value => .ok (if value then "true".toList else "false".toList)
  | .int _ => (writtenForm (.scalar value)).map String.toList
  | .text value => printString value
  | .measure measure =>
      (writtenForm (.scalar value)).map fun written => measureChars measure.kind written.toList

/-- Items in brackets, each followed by a comma. -/
def inBrackets (items : List (List Char)) : List Char :=
  '[' :: items.flatMap (fun item => ' ' :: item ++ [',']) ++ [']']

mutual

/-- A value on one line. A table within an array is written as the list of its keys. -/
def printValue : Value → Except Fault (List Char)
  | .scalar value => printScalar value
  | .list items => (printItems items).map inBrackets
  | .table entries => (entries.mapM fun entry => printString entry.1).map inBrackets

/-- The items of an array. -/
def printItems : List Value → Except Fault (List (List Char))
  | [] => .ok []
  | item :: items => do
      let first ← printValue item
      let others ← printItems items
      return first :: others

end

/-! ## Tables -/

mutual

/-- How many levels of parts a value has. -/
def levels : Value → Nat
  | .scalar _ => 0
  | .list items => levelsOfItems items + 1
  | .table entries => levelsOfEntries entries + 1

/-- The levels of the deepest item. -/
def levelsOfItems : List Value → Nat
  | [] => 0
  | item :: items => max (levels item) (levelsOfItems items)

/-- The levels of the deepest entry. -/
def levelsOfEntries : List (String × Value) → Nat
  | [] => 0
  | (_, value) :: entries => max (levels value) (levelsOfEntries entries)

end

/--
The entries of a table to be written. Their keys are texts, save for those of a table that was made
from pairs of other values.
-/
abbrev Entries := Keyed Scalar Value

/-- The entries of a table. -/
def entriesOf (table : Table) : Entries := table.map fun (key, value) => (.text key, value)

/--
The name that an entry is written under, and its value. A key that is no text stands for the entry
whose key is its written form.
-/
def nameAndValue (entries : Entries) : (entry : Scalar × Value) → Except Fault (String × Value)
  | (.text key, value) => .ok (key, value)
  | (key, _) => do
      let name ← writtenForm (.scalar key)
      match Keyed.get? (.text name) entries with
      | some value => return (name, value)
      | none => .error (.keyNotText name)

/-- Tables of the document under their full names. -/
abbrev Sections := Keyed (List Char) Entries

/-- What a table is written as: its own lines, and the tables in it under their names. -/
structure Printed where
  /-- The plain entries. -/
  plain : List Char := []
  /-- The arrays of tables. -/
  arrays : List Char := []
  sections : Sections := []

/-- The own lines of a table. -/
def Printed.lines (printed : Printed) : List Char := printed.plain ++ printed.arrays

/-- A value is a table. -/
def isTable : Value → Bool
  | .table _ => true
  | _ => false

/--
The entries of an item in an array of tables. An item that is no table has none if it is empty;
otherwise its first member is taken for a key, before it turns out that there is no value under it.
-/
def itemEntries (item : Value) : Except Fault Entries :=
  match item with
  | .table table => .ok (entriesOf table)
  | item =>
      match item.members? with
      | none => .error .notTable
      | some [] => .ok []
      | some (first :: _) => do
          let _ ← printKey (← writtenForm first)
          .error .notTable

/-- A name within the table of another name. -/
def qualified (outer name : List Char) : List Char :=
  if outer.isEmpty then name else outer ++ '.' :: name

/-- How a table of a given name is written. -/
abbrev PrintTable := List Char → Entries → Except Fault Printed

/-- The tables within an item of an array of tables, level by level. -/
def printInner (print : PrintTable) (name : List Char) : (rounds : Nat) → (sections : Sections) →
    Except Fault (List Char)
  | 0, _ => .ok []
  | rounds + 1, sections => do
      let printed ← sections.mapM fun (inner, entries) => do
        let full := qualified name inner
        let printed ← print full entries
        let lines :=
          if printed.lines.isEmpty then []
          else '[' :: full ++ [']', '\n'] ++ printed.lines
        return (lines, printed.sections.map fun (s, entries) => (qualified inner s, entries))
      let next : Sections := Keyed.update [] (printed.flatMap Prod.snd)
      let others ← if next.isEmpty then .ok [] else printInner print name rounds next
      return printed.flatMap Prod.fst ++ others

/-- One item of an array of tables under its header. -/
def printItem (print : PrintTable) (rounds : Nat) (name : List Char) (item : Value) :
    Except Fault (List Char) := do
  let entries ← itemEntries item
  let printed ← print name entries
  let lines := printed.lines
  let inner ← printInner print name rounds printed.sections
  let own := if lines.head? = some '[' then '\n' :: lines else lines ++ ['\n']
  return '[' :: '[' :: name ++ [']', ']', '\n'] ++ own ++ inner

/-- Adds an entry to what its table is written as. -/
def printEntry (print : PrintTable) (rounds : Nat) (outer : List Char) (entries : Entries)
    (printed : Printed) (entry : Scalar × Value) : Except Fault Printed := do
  let (name, value) ← nameAndValue entries entry
  let key ← printKey name
  match value with
  | .table table =>
      return { printed with sections := Keyed.set key (entriesOf table) printed.sections }
  | .scalar .null => return printed
  | .list items =>
      if items.any isTable then
        let texts ← items.mapM (printItem print rounds (qualified outer key))
        return { printed with arrays := printed.arrays ++ texts.flatten }
      else
        let text ← printValue (.list items)
        return { printed with plain := printed.plain ++ key ++ " = ".toList ++ text ++ ['\n'] }
  | value =>
      let text ← printValue value
      return { printed with plain := printed.plain ++ key ++ " = ".toList ++ text ++ ['\n'] }

/-- A table whose values have at most `depth` levels. -/
def printTable : (depth : Nat) → PrintTable
  | 0, _, _ => .ok {}
  | depth + 1, name, entries =>
      entries.foldlM (printEntry (printTable depth) depth name entries) {}

/-- The text with a section added, after an empty line unless it is the first. -/
def addSection (text name : List Char) (printed : Printed) : List Char :=
  if printed.lines.isEmpty && !printed.sections.isEmpty then text
  else
    let gap := !text.isEmpty && text.reverse.take 2 ≠ ['\n', '\n']
    text ++ (if gap then ['\n'] else []) ++ '[' :: name ++ [']', '\n'] ++ printed.lines

/-- Adds the sections of a level to a text, then those within them. -/
def printSections (depth : Nat) : (rounds : Nat) → (text : List Char) →
    (sections : Sections) → Except Fault (List Char)
  | 0, text, _ => .ok text
  | rounds + 1, text, sections => do
      let (text, next) ← sections.foldlM (fun (text, next) (name, entries) => do
        let printed ← printTable depth name entries
        let inner : Sections := printed.sections.map fun (s, entries) => (name ++ '.' :: s, entries)
        return (addSection text name printed, Keyed.update next inner)) (text, ([] : Sections))
      if next.isEmpty then return text else printSections depth rounds text next

/--
A configuration to be written. Where a name is among `given`, the entries given there stand for
those of the table under that name.
-/
structure Draft where
  table : Table
  given : Sections := []

/-- The text of a configuration. -/
def print (draft : Draft) : Except Fault String := do
  let givenLevels := levelsOfItems (draft.given.flatMap fun entries => entries.2.map Prod.snd)
  let depth := max (levelsOfEntries draft.table) (givenLevels + 1) + 1
  let printed ← printTable depth [] (entriesOf draft.table)
  let sections := printed.sections.map fun (name, entries) =>
    (name, (Keyed.get? name draft.given).getD entries)
  let text ← printSections depth depth printed.lines sections
  return String.ofList text

end Lineage.Toml
