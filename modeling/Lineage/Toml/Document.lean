import Lineage.Toml.Entry
import Lineage.Toml.Layout

/-!
# Reading configuration texts

The logical lines of a text are read one after the other. A header in single brackets names the
table that the following entries belong to; a header in double brackets adds a table to an array of
tables. A table that only came about on the way to another may be opened once by a header of its
own.
-/

namespace Lineage.Toml

/-! ## Places in a document -/

/-- A step from a value to a part of it. -/
inductive Step where
  /-- To the value under a key of a table. -/
  | key (name : String)
  /-- To the last item of an array. -/
  | last
  deriving Repr, DecidableEq

/-- Changes the value that some steps lead to. -/
def alter {α : Type} (change : Value → Except Fault (Value × α)) :
    (steps : List Step) → Value → Except Fault (Value × α)
  | [], value => change value
  | .key name :: steps, .table table =>
      match Keyed.get? name table with
      | none => .error .notTable
      | some value => do
          let (value, result) ← alter change steps value
          return (.table (Keyed.set name value table), result)
  | .last :: steps, .list items =>
      match items.getLast? with
      | none => .error .cutShort
      | some item => do
          let (item, result) ← alter change steps item
          return (.list (items.dropLast ++ [item]), result)
  | _ :: _, _ => .error .notTable

/-! ## Headers -/

/-- Names of headers that may stand without quotes. -/
def isPlainName (name : List Char) : Bool :=
  !name.isEmpty && name.all fun c => c.isAlphanum || c = '_' || c = '-'

/--
The names in a header, from the parts between its dots; `pending` is the start of a quoted name that
a dot has cut. Escapes do not count in a quoted name.
-/
def headerNames : (pending : Option (List Char)) → (parts : List (List Char)) →
    Except Fault (List String)
  | none, [] => .ok []
  | some _, [] => .error .malformed
  | pending, part :: parts =>
      let whole :=
        match pending with
        | none => Text.strip part
        | some start => start ++ '.' :: part
      match Text.strip whole with
      | first :: rest =>
          if isQuote first then
            if !rest.isEmpty && rest.getLast? = some first then
              (headerNames none parts).map (String.ofList rest.dropLast :: ·)
            else headerNames (some whole) parts
          else if isPlainName whole then (headerNames none parts).map (String.ofList whole :: ·)
          else .error .malformed
      | [] => .error .malformed

/-- A header: the names that lead to its table, and whether it adds to an array of tables. -/
structure Header where
  names : List String
  adds : Bool

/-- The header on a line that starts with a bracket. -/
def header (line : List Char) : Except Fault Header :=
  let adds := (line.drop 1).head? = some '['
  let inner := if adds then line.drop 2 else line.drop 1
  let closing := if adds then [']', ']'] else [']']
  let parts := Text.pieces closing inner
  let count := firstSeparator closing inner
  if line.length = 1 || parts.length ≤ count then .error .malformed
  else if !(Text.strip (joinPieces closing (parts.drop count))).isEmpty then .error .malformed
  else
    (headerNames none (Text.fields '.' (joinPieces closing (parts.take count)))).map
      fun names => ⟨names, adds⟩

/-- The value after a header was followed, the steps to its table, and the tables met on the way. -/
structure Opened where
  value : Value
  steps : List Step
  /-- Tables that only came about on the way to another. -/
  implicit : List String

/-- Goes on in the last item of an array. -/
def inLast (items : List Value) (follow : Value → Except Fault Opened) : Except Fault Opened :=
  match items.getLast? with
  | none => .error .cutShort
  | some item => do
      let opened ← follow item
      return { opened with
        value := .list (items.dropLast ++ [opened.value]), steps := .last :: opened.steps }

/-- Goes on under a key of a table, and for an array of tables in its last item. -/
def inMember (adds : Bool) (name : String) (table : Table) (follow : Value → Except Fault Opened) :
    Except Fault Opened := do
  let member := (Keyed.get? name table).getD (.table [])
  let opened ←
    match adds, member with
    | true, .list items => inLast items follow
    | true, .scalar (.text text) => if text.isEmpty then .error .cutShort else follow member
    | true, .scalar _ => .error .notTable
    | _, member => follow member
  return { opened with
    value := .table (Keyed.set name opened.value table), steps := .key name :: opened.steps }

/-- What a header makes under its last name. -/
def newMember (adds : Bool) : Value := if adds then .list [.table []] else .table []

/--
The table with the member that a header names, and the tables made on the way. The refusal of a
table that is already there names the table it is in, and so needs its written form.
-/
def makeMember (adds isLast : Bool) (name : String) (implicit : List String) (table : Table) :
    Except Fault (Table × List String) :=
  match Keyed.get? name table with
  | none =>
      if isLast then .ok (Keyed.set name (newMember adds) table, implicit)
      else .ok (Keyed.set name (.table []) table, implicit ++ [name])
  | some member =>
      if !isLast then .ok (table, implicit)
      else if name ∈ implicit then
        if adds then .error .malformed else .ok (table, implicit.erase name)
      else if adds then
        match member with
        | .list items => .ok (Keyed.set name (.list (items ++ [.table []])) table, implicit)
        | _ => .error .notArray
      else if (Value.table table).written?.isNone then .error .noForm
      else .error .malformed

/-- The item of an array of tables with the member that a header names. -/
def makeInItem (adds isLast : Bool) (name : String) (table : Table) : Table :=
  match Keyed.get? name table with
  | some _ => table
  | none => Keyed.set name (if isLast then newMember adds else .table []) table

/-- Follows the names of a header, making the tables that are missing. -/
def openTable (adds : Bool) : (names implicit : List String) → Value → Except Fault Opened
  | [], implicit, value => .ok ⟨value, [], implicit⟩
  | name :: names, implicit, value =>
      if name.isEmpty then .error .malformed
      else
        match value with
        | .table table => do
            let (table, implicit) ← makeMember adds names.isEmpty name implicit table
            inMember adds name table (openTable adds names implicit)
        | .list items =>
            inLast items fun item =>
              match item with
              | .table table =>
                  inMember adds name (makeInItem adds names.isEmpty name table)
                    (openTable adds names implicit)
              | _ => .error .notTable
        | .scalar (.text text) => if text.isEmpty then .error .cutShort else .error .notTable
        | .scalar _ => .error .notTable

/-! ## Documents -/

/-- What has been read of a document. -/
structure Reading where
  root : Value := .table []
  /-- The steps to the place that entries now belong to. -/
  steps : List Step := []
  implicit : List String := []
  /-- The entry whose string goes on in the next line. -/
  openEntry : Option OpenEntry := none

namespace Reading

/-- Changes the value that entries now belong to. -/
def change (reading : Reading) (f : Value → Except Fault (Value × Option OpenEntry)) :
    Except Fault Reading := do
  let (root, openEntry) ← alter f reading.steps reading.root
  return { reading with root := root, openEntry := openEntry }

/-- The line ends the open string, or the array it is in, that has been read up to its end. -/
def closes (text line : List Char) : Except Fault Bool :=
  match text with
  | '[' :: _ =>
      match line.getLast? with
      | none => .error .cutShort
      | some last => .ok (last = ']')
  | quote :: _ => .ok (2 < line.length && (line.reverse.take 3).all (· = quote))
  | [] => .ok false

/--
A further line of an open string. The entry is made in the place that the header leads to, also if
its key leads further.
-/
def continueEntry (reading : Reading) (entry : OpenEntry) (line : List Char) :
    Except Fault Reading := do
  let text := entry.text ++ line
  if ← closes text line then
    let value ← value text true
    reading.change fun place =>
      match place with
      | .table table => .ok (.table (Keyed.set entry.name value table), none)
      | _ => .error .notTable
  else return { reading with openEntry := some (OpenEntry.extend entry.name text) }

/-- A line that does not continue a string. -/
def statement (reading : Reading) (line : List Char) : Except Fault Reading :=
  match line with
  | [] => .ok reading
  | first :: _ =>
      if first = '[' then do
        let header ← header line
        let opened ← openTable header.adds header.names reading.implicit reading.root
        return { reading with
          root := opened.value, steps := opened.steps, implicit := opened.implicit }
      else if first = '\x7b' then
        if line.getLast? = some '\x7d' then
          reading.change fun place => (inlineTable value line place).map fun place => (place, none)
        else .error .malformed
      else if line.contains '=' then reading.change (enter value line)
      else .ok reading

/-- The next line. -/
def line (reading : Reading) (line : List Char) : Except Fault Reading :=
  match reading.openEntry with
  | none => reading.statement (Text.strip line)
  | some entry =>
      let line := if entry.continued || !entry.text.contains '\n' then Text.strip line else line
      if line.isEmpty && entry.continued then .ok reading else reading.continueEntry entry line

end Reading

/-- The table that a configuration text stands for. -/
def parse (text : String) : Except Fault Table := do
  let lines ← logicalLines text.toList
  let reading ← lines.foldlM Reading.line {}
  match reading.root with
  | .table table => return table
  | _ => .error .malformed

end Lineage.Toml
