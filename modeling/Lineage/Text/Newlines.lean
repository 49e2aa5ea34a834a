import Lineage.Text.Utf8

/-!
# Line ends and the texts of files

A line of a file may end in a line feed, a carriage return or both; inside the library every line
ends in a single line feed. Source files are read leniently, so that one bad byte never hides a
file, and the configuration strictly.
-/

namespace Lineage.Text

/-- Every line end as a single line feed. -/
def foldNewlines : List Char → List Char
  | '\r' :: '\n' :: text => '\n' :: foldNewlines text
  | c :: text => (if c = '\r' then '\n' else c) :: foldNewlines text
  | [] => []

/-- The text of a source file. -/
def ofSourceBytes (bytes : List UInt8) : String :=
  String.ofList (foldNewlines (Utf8.decodeLenient bytes))

/-- The text of a file that must be well-formed. -/
def ofBytes? (bytes : List UInt8) : Option String :=
  (Utf8.decode? bytes).map fun text => String.ofList (foldNewlines text)

/-- The bytes under which a text is stored. -/
def toBytes (text : String) : List UInt8 := Utf8.encode text.toList

end Lineage.Text
