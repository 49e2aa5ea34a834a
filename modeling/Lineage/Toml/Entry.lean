import Lineage.Toml.Moment

/-!
# Entries of a configuration table

An entry is a key, an equals sign and a value: a truth value, a string, a number, a time or a date,
an array of values of one kind, or an inline table. A dotted key leads through tables, which are
made where they are missing. A string of three quotes may go on in the following lines; its entry
stays open.

The place that entries are made in need not be a table, as a header may lead to any value. Then the
value of the entry is still read before the entry is refused.
-/

namespace Lineage.Toml

/-! ## Splitting around quotes -/

/-- The quoted and unquoted parts after a start that holds a single quote. -/
def mendSingle : (done : List (List Char)) → (parts : List (List Char)) →
    List (List Char) × List (List Char)
  | done, [] => (done, [])
  | done, part :: parts =>
      if done.length % 2 = 0 then
        let joined := (done.getLast?.getD []) ++ '"' :: part
        mendSingle (done.dropLast ++ Text.fields '\'' joined) parts
      else (done, part :: parts)

/-- Unquoted and quoted parts of a text, by turns, starting with an unquoted one. -/
def quoteParts (text : List Char) : List (List Char) :=
  match Text.fields '"' text with
  | first :: second :: others =>
      let start :=
        if first.contains '\'' then mendSingle (Text.fields '\'' first) (second :: others)
        else ([], first :: second :: others)
      match start.2 with
      | [] => start.1
      | part :: parts => start.1 ++ Text.fields '\'' part ++ parts
  | parts => parts.flatMap (Text.fields '\'')

/-- One more than the number of separators before the first unquoted part that holds one. -/
def separatorsFrom (separator : List Char) (quoted : Bool) (count : Nat) :
    (parts : List (List Char)) → Nat
  | [] => count
  | part :: parts =>
      if !quoted && Text.occurs separator part then count
      else
        separatorsFrom separator (!quoted)
          (count + ((Text.pieces separator part).length - 1)) parts

/-- One more than the number of separators that stand in quotes before the first that does not. -/
def firstSeparator (separator text : List Char) : Nat :=
  separatorsFrom separator false 1 (quoteParts text)

/-- Parts with a separator between them. -/
def joinPieces (separator : List Char) (parts : List (List Char)) : List Char :=
  separator.intercalate parts

/-! ## Key and value -/

/-- The value is of a form that need not stand right after the equals sign. -/
def startsFreely (text : List Char) : Bool :=
  match text with
  | [] => true
  | c :: _ =>
      [' ', '\t', '\'', '"', '[', '\x7b'].contains c || Text.strip text = "true".toList ||
        Text.strip text = "false".toList

/-- A line cut at an equals sign. -/
structure CutLine where
  key : List Char
  value : List Char
  /-- A number with this value has a proper form. -/
  proper : Bool

/--
A value may stand right after the equals sign: a number, a date or a time, or what need not stand
there.
-/
def mayFollow (text : List Char) : Except Fault Bool :=
  if startsFreely text || isDecimal text then .ok true
  else (moment? text).map fun found => found.isSome || startsWithTime text

/--
The parts of a line around its equals signs, cut into key and value. A value right after the equals
sign must be a number, a date or a time; otherwise the cut moves on to the next equals sign. The
form of a number must be proper at every cut.
-/
def cutAt (parts : List (List Char)) : (rounds count : Nat) → (proper : Bool) →
    (value : List Char) → Except Fault CutLine
  | 0, _, _, _ => .error .malformed
  | rounds + 1, count, proper, value => do
      if ← mayFollow value then
        let count := min count (parts.length - 1)
        return ⟨Text.strip (joinPieces ['='] (parts.take count)), Text.strip value, proper⟩
      else
        let next := joinPieces ['='] (parts.drop (min (count + 1) (parts.length - 1)))
        if next = value then .error .malformed
        else cutAt parts rounds (count + 1) (proper && isProperNumber next) next

/-- A line cut into key and value. Underscores do not count in a value that is cut first. -/
def cutLine (line : List Char) : Except Fault CutLine :=
  let parts := Text.fields '=' line
  let count := firstSeparator ['='] line
  let value := joinPieces ['='] (parts.drop (min count (parts.length - 1)))
  let plain := if value.head?.any Char.isDigit then value.filter (· ≠ '_') else value
  cutAt parts (parts.length + 2) count (isProperNumber value) plain

/-- The parts of a dotted key; those in quotes are taken as they are. -/
def keyLevels (quoted : Bool) : (parts : List (List Char)) → List (List Char)
  | [] => []
  | part :: parts =>
      (if quoted then [part] else (Text.fields '.' part).map Text.strip) ++
        keyLevels (!quoted) parts

/--
The tables that a key leads through and the name of the entry in the last of them. One-letter
escapes count in a key in quotes of either kind, unless the key has a dot.
-/
def keyPath (key : List Char) : Except Fault (List String × String) :=
  if key.contains '.' then
    let levels :=
      if key.contains '"' || key.contains '\'' then keyLevels false (quoteParts key)
      else Text.fields '.' key
    match (levels.reverse.dropWhile List.isEmpty) with
    | [] => .error .cutShort
    | name :: through =>
        .ok ((through.reverse.filter (!·.isEmpty)).map String.ofList,
          String.ofList (Text.strip name))
  else
    match key with
    | [] => .error .cutShort
    | first :: rest =>
        if (first = '"' || first = '\'') && key.getLast? = some first then
          (unescape rest.dropLast).map fun name => ([], String.ofList name)
        else .ok ([], String.ofList key)

/-- Changes the value that a key leads to, making the tables on the way. -/
def atLevels {α : Type} (change : Value → Except Fault (Value × α)) :
    (levels : List String) → Value → Except Fault (Value × α)
  | [], place => change place
  | level :: levels, .table table => do
      let inner := (Keyed.get? level table).getD (.table [])
      let (inner, result) ← atLevels change levels inner
      return (.table (Keyed.set level inner table), result)
  | _ :: _, _ => .error .notTable

/-! ## Values -/

/-- A quote of either kind. -/
def isQuote (c : Char) : Bool := c = '"' || c = '\''

/--
The last string of an array whose parts between commas are given, the last one first. Commas within
the string are part of it.
-/
def lastString (last : List Char) : (before : List (List Char)) → Except Fault (List Char)
  | [] => .ok last
  | previous :: before =>
      match last with
      | [] => .error .cutShort
      | c :: _ => if isQuote c then .ok last else lastString (previous ++ ',' :: last) before

/-- What of a value may go on in the next line: of an open array of strings, the last string. -/
def openPart (text : List Char) : Except Fault (List Char) :=
  match text with
  | '[' :: rest =>
      if text.getLast? ≠ some ']' && (Text.strip rest.dropLast).head?.any isQuote then
        match (Text.fields ',' (Text.strip rest)).reverse with
        | [] => .ok text
        | last :: before => lastString last before
      else .ok text
  | _ => .ok text

/-- A value ends in a string of three quotes that its line does not close. -/
def opensLines (text : List Char) : Except Fault Bool :=
  if text.length < 3 then .ok false
  else do
    let part ← openPart text
    match part with
    | [] => .error .cutShort
    | a :: rest =>
        let closed := part.length > 5 && (part.reverse.take 3).all (· = a)
        if !isQuote a then return false
        else
          match rest with
          | [] => .error .cutShort
          | b :: rest =>
              if b ≠ a then return false
              else
                match rest with
                | [] => .error .cutShort
                | c :: _ => return c = a && !closed

/-- An entry whose string goes on in the next line. -/
structure OpenEntry where
  name : String
  /-- What has been read of the string. -/
  text : List Char
  /-- The last line ended in a backslash, so the next is joined to it. -/
  continued : Bool

/-- What has been read of an open string, after its latest line. -/
def OpenEntry.extend (name : String) (text : List Char) : OpenEntry :=
  if Text.finalBackslashes text % 2 = 1 then ⟨name, text.dropLast, true⟩
  else ⟨name, text ++ ['\n'], false⟩

/-- How values are read from text; the flag tells that the form of a number was proper. -/
abbrev ReadValue := List Char → Bool → Except Fault Value

/-- The table in a place, if there is one and a name is still free in it. -/
def tableWithout (name : String) (place : Value) : Except Fault Table :=
  match place with
  | .table table => if (Keyed.get? name table).isSome then .error .malformed else .ok table
  | _ => .error .malformed

/-- Makes an entry from a line, unless the string of its value stays open. -/
def enter (read : ReadValue) (line : List Char) (place : Value) :
    Except Fault (Value × Option OpenEntry) := do
  let cut ← cutLine line
  let (levels, name) ← keyPath cut.key
  atLevels (fun place => do
    if ← opensLines cut.value then
      let _ ← tableWithout name place
      if name.isEmpty then .error .unnamed
      else return (place, some (OpenEntry.extend name cut.value))
    else
      let value ← read cut.value cut.proper
      let table ← tableWithout name place
      return (.table (Keyed.set name value table), none)) levels place

/-- A value that an entry of an inline table can end with. -/
def completesEntry (value : List Char) : Except Fault Bool :=
  match value, value.getLast? with
  | first :: _, some last =>
      .ok (((first = '"' || first = '\'') && first = last) || first = '-' || first.isDigit ||
        value = "true".toList || value = "false".toList || (first = '[' && last = ']') ||
        (first = '\x7b' && last = '\x7d'))
  | _, _ => .error .cutShort

/-- The entries of an inline table, from the parts between its commas. -/
def inlineEntries : (pending : Option (List Char)) → (parts : List (List Char)) →
    Except Fault (List (List Char))
  | none, [] => .ok []
  | some _, [] => .error .malformed
  | pending, part :: parts =>
      let entry :=
        match pending with
        | none => part
        | some text => text ++ ',' :: part
      if entry.contains '=' then do
        if ← completesEntry (Text.strip ((entry.dropWhile (· ≠ '=')).drop 1)) then
          let others ← inlineEntries none parts
          return entry :: others
        else inlineEntries (some entry) parts
      else .error .malformed

/-- Makes the entries of an inline table one after the other, up to one that stays open. -/
def enterAll (read : ReadValue) : (entries : List (List Char)) → Value → Except Fault Value
  | [], place => .ok place
  | entry :: entries, place => do
      match ← enter read entry place with
      | (place, none) => enterAll read entries place
      | (place, some _) => .ok place

/-- Makes the entries of an inline table in a place. -/
def inlineTable (read : ReadValue) (text : List Char) (place : Value) : Except Fault Value := do
  let inner := (text.drop 1).dropLast
  let parts := if (Text.strip inner).isEmpty then [] else Text.fields ',' inner
  let entries ← inlineEntries none parts
  enterAll read entries place

/-! ## Arrays -/

/-- A text that starts and ends with the same quote, the latter not escaped. -/
def isBounded (text : List Char) : Bool :=
  match text with
  | [] => true
  | first :: rest =>
      match text.getLast? with
      | some last => last = first && Text.finalBackslashes rest.dropLast % 2 = 0
      | none => true

/-- An element of an array of strings that a comma within the string has cut. -/
def isCut (element : List Char) : Bool :=
  let text := Text.strip element
  !isBounded text ||
    (match text, text.reverse with
    | a :: b :: c :: _, _ :: y :: z :: _ => a = b && b = c && y ≠ a && z ≠ a
    | _, _ => false)

/-- The elements of an array of strings, from the parts between its commas. -/
def mendStrings (current : List Char) (mended : Bool) : (parts : List (List Char)) →
    Except Fault (List (List Char))
  | [] => if mended && isCut current then .error .cutShort else .ok [current]
  | part :: parts =>
      if isCut current then mendStrings (current ++ ',' :: part) true parts
      else (mendStrings part false parts).map (current :: ·)

/-- Where a reader of an array of inline tables stands. -/
inductive TablesProgress where
  /-- Between two tables; the character after a table is passed over. -/
  | between (skip : Bool)
  /-- Within a table: its text, last character first, the open braces, and if a string is open. -/
  | within (text : List Char) (depth : Nat) (inString : Bool)

/-- The elements of an array of inline tables. -/
def tableElements : TablesProgress → List Char → List (List Char)
  | _, [] => []
  | .between true, _ :: text => tableElements (.between false) text
  | .between false, c :: text =>
      if c = '\x7b' then tableElements (.within [c] 1 false) text
      else tableElements (.between false) text
  | .within done depth inString, c :: text =>
      let escaped := inString && (done.takeWhile (· = '\\')).length % 2 = 1
      let inString := if (c = '"' || c = '\'') && !escaped then !inString else inString
      if inString || (c ≠ '\x7b' && c ≠ '\x7d') then
        tableElements (.within (c :: done) depth inString) text
      else if c = '\x7b' then tableElements (.within (c :: done) (depth + 1) inString) text
      else if 1 < depth then tableElements (.within (c :: done) (depth - 1) inString) text
      else (c :: done).reverse :: tableElements (.between true) text

/-- The elements of an array of arrays: the parts between the commas outside brackets. -/
def nestedElements (depth : Int) : List Char → List (List Char)
  | [] => [[]]
  | c :: text =>
      if c = ',' && depth = 0 then [] :: nestedElements depth text
      else
        let depth := if c = '[' then depth + 1 else if c = ']' then depth - 1 else depth
        match nestedElements depth text with
        | [] => [[c]]
        | first :: others => (c :: first) :: others

/-- The texts of the elements of an array. -/
def elements (text : List Char) : Except Fault (List (List Char)) :=
  let inner := ((Text.strip text).drop 1).dropLast
  let start := Text.strip inner
  if inner.contains '[' && (Text.strip (inner.takeWhile (· ≠ '['))).isEmpty then
    .ok (nestedElements 0 inner)
  else if start.head? = some '\x7b' then .ok (tableElements (.within [] 0 false) inner)
  else
    match Text.fields ',' inner with
    | first :: others =>
        if start.head?.any (fun c => c = '"' || c = '\'') then mendStrings first false others
        else .ok (first :: others)
    | [] => .ok []

/-- The kinds of values that an array keeps apart. -/
inductive ValueKind where
  | null
  | bool
  | int
  | text
  | measure (kind : Measure.Kind)
  | list
  | table
  deriving DecidableEq

/-- The kind of a value. -/
def kindOf : Value → ValueKind
  | .scalar .null => .null
  | .scalar (.bool _) => .bool
  | .scalar (.int _) => .int
  | .scalar (.text _) => .text
  | .scalar (.measure value) => .measure value.kind
  | .list _ => .list
  | .table _ => .table

/-- Reads the elements of an array, which must be of the kind of the first. -/
def readElements (read : ReadValue) (kind : Option ValueKind) : (texts : List (List Char)) →
    Except Fault (List Value)
  | [] => .ok []
  | text :: texts =>
      let text := Text.strip text
      if text.isEmpty then readElements read kind texts
      else do
        let value ← read text true
        if kind.all (· = kindOf value) then
          let values ← readElements read (some (kindOf value)) texts
          return value :: values
        else .error .malformed

/-- The array that a text in brackets stands for. -/
def array (read : ReadValue) (text : List Char) : Except Fault Value := do
  let texts ← elements text
  let values ← readElements read none texts
  return .list values

/-! ## Reading values -/

/-- The value that a text stands for as a number, a date or a time. -/
def plainValue (text : List Char) (proper : Bool) : Except Fault Scalar := do
  if startsWithTime text then
    match time? text with
    | some time => return .measure time
    | none => .error .malformed
  else
    match ← moment? text with
    | some moment => return .measure moment
    | none =>
        match number? text with
        | some number => if proper then return number else .error .malformed
        | none => .error .malformed

/--
Reads a value. `room` bounds how deep it nests: an array takes two units of it, an inline table
three.
-/
def valueWithin : (room : Nat) → ReadValue
  | 0, _, _ | 1, _, _ | 2, _, _ => .error .tooDeep
  | room + 3, text, proper =>
      match text with
      | [] => .error .malformed
      | first :: _ =>
          if text = "true".toList then .ok (.scalar (.bool true))
          else if text = "false".toList then .ok (.scalar (.bool false))
          else if first = '"' || first = '\'' then
            (string first text).map fun chars => .scalar (.text (String.ofList chars))
          else if first = '[' then array (valueWithin (room + 1)) text
          else if first = '\x7b' then inlineTable (valueWithin room) text (.table [])
          else (plainValue text proper).map Value.scalar

/-- The room that there is for the nesting of values. -/
def nestingRoom : Nat := 987

/-- Reads a value. -/
def value : ReadValue := valueWithin nestingRoom

end Lineage.Toml
