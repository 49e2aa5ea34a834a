import Lineage.Text.Hexadecimal
import Lineage.Tree

/-!
# JSON

A hierarchy is exported as nested JSON objects, indented by two spaces a level. The text is pure
ASCII: every other character is written as the `\u` escapes of its UTF-16 units.
-/

namespace Lineage

/-- The JSON values that exports are made of. -/
inductive Json where
  | int (value : Int)
  | text (value : String)
  | array (items : List Json)
  | object (fields : List (String × Json))

namespace Json

/-- The `\u` escape of one UTF-16 unit. -/
def unitEscape (unit : Nat) : List Char := '\\' :: 'u' :: Text.hexDigits 4 unit

/-- A character inside a string. -/
def escapeChar (c : Char) : List Char :=
  if c = '"' ∨ c = '\\' then ['\\', c]
  else if c = '\n' then ['\\', 'n']
  else if c = '\r' then ['\\', 'r']
  else if c = '\t' then ['\\', 't']
  else if c = '\x0c' then ['\\', 'f']
  else if c = '\x08' then ['\\', 'b']
  else if 0x20 ≤ c.toNat ∧ c.toNat < 0x7F then [c]
  else if c.toNat < 0x10000 then unitEscape c.toNat
  else
    unitEscape (0xD800 + (c.toNat - 0x10000) / 0x400) ++
      unitEscape (0xDC00 + (c.toNat - 0x10000) % 0x400)

/-- A string with its quotes. -/
def string (text : String) : List Char := '"' :: text.toList.flatMap escapeChar ++ ['"']

/-- The start of a line at a level of nesting. -/
def lineStart (level : Nat) : List Char := '\n' :: List.replicate (2 * level) ' '

mutual

/-- The text of a value whose inner lines stand one level deeper than `level`. -/
def write (level : Nat) : Json → List Char
  | int value => value.repr.toList
  | text value => string value
  | array [] => ['[', ']']
  | array (item :: items) =>
      '[' :: lineStart (level + 1) ++ write (level + 1) item ++ writeItems (level + 1) items ++
        lineStart level ++ [']']
  | object [] => ['\x7b', '\x7d']
  | object (field :: fields) =>
      '\x7b' :: lineStart (level + 1) ++ writeField (level + 1) field ++
        writeFields (level + 1) fields ++ lineStart level ++ ['\x7d']

/-- The items of an array after the first one. -/
def writeItems (level : Nat) : List Json → List Char
  | [] => []
  | item :: items => ',' :: lineStart level ++ write level item ++ writeItems level items

/-- A name and its value. -/
def writeField (level : Nat) : String × Json → List Char
  | (name, value) => string name ++ ':' :: ' ' :: write level value

/-- The fields of an object after the first one. -/
def writeFields (level : Nat) : List (String × Json) → List Char
  | [] => []
  | field :: fields => ',' :: lineStart level ++ writeField level field ++ writeFields level fields

end

/-- The text of a value. -/
def render (value : Json) : String := String.ofList (value.write 0)

end Json

/-- A usage as a JSON object; the file is left out if it is not known. -/
def TagUsage.toJson (usage : TagUsage) : Json :=
  let file := (usage.file.map fun file => ("file_path", Json.text file.toString)).toList
  .object
    ([("tag", .text usage.tag), ("line", .int usage.line), ("context", .text usage.context)] ++
      file)

mutual

/-- A tree as nested JSON objects. -/
def Tree.toJson : Tree → Json
  | ⟨name, path, tags, children⟩ =>
      .object [("name", .text name), ("file_path", .text path.toString),
        ("tags", .array (tags.map TagUsage.toJson)), ("children", .array (toJsonAll children))]

/-- Several trees as JSON objects. -/
def Tree.toJsonAll : List Tree → List Json
  | [] => []
  | tree :: trees => toJson tree :: toJsonAll trees

end

end Lineage
