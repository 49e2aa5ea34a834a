import Lineage.Lexical.Declaration

/-!
# Class headers with a list of bases

The other way to name a parent is a list of bases in parentheses after the class name. Such a
header stands at the start of a line. An entry of the list counts as its last dotted component,
without a subscript; an entry with an equals sign is a keyword argument and no base. The list ends
at the first closing parenthesis and may run over several lines.
-/

namespace Lineage.Lexical.BaseList

/-- The position is at the start of a line. -/
def atLineStart (before : Option Char) : Bool :=
  match before with
  | none => true
  | some c => c = '\n'

/-- The characters that indent a line. -/
def isIndent (c : Char) : Bool := c = ' ' || c = '\t'

/-- The list in parentheses that a text starts with, after any blanks, and its length with them. -/
def list? (text : List Char) : Option (Found (List Char)) :=
  match pastGap text with
  | '(' :: rest =>
      let inner := rest.takeWhile (· ≠ ')')
      match rest.dropWhile (· ≠ ')') with
      | [] => none
      | _ :: _ => some ⟨inner, (gap text).length + inner.length + 2⟩
  | _ => none

/-- The header that starts at the position: the class and the text of its list. -/
def headerAt? : Rule (Option (Found (List Char × List Char))) := fun before text =>
  if atLineStart before then
    let indent := text.takeWhile isIndent
    match Declaration.nameAt? none (text.dropWhile isIndent) with
    | none => none
    | some declared =>
        let length := indent.length + declared.length
        match list? (text.drop length) with
        | none => none
        | some bases => some ⟨(declared.value, bases.value), length + bases.length⟩
  else none

/-- The class that an entry of a list names, unless it is empty or a keyword argument. -/
def base? (entry : List Char) : Option (List Char) :=
  let entry := Text.strip entry
  if entry.isEmpty || entry.contains '=' then none
  else
    let path := entry.takeWhile fun c => c ≠ '[' && !Unicode.isBlank c
    some (path.reverse.takeWhile (· ≠ '.')).reverse

/-- The list names the parent among its bases. -/
def names (bases parent : List Char) : Bool :=
  (Text.fields ',' bases).any fun entry => base? entry == some parent

/-- The classes whose headers name the parent among their bases, in the order of the text. -/
def children (text parent : String) : List String :=
  (allMatches headerAt? text.toList).filterMap fun header =>
    if names header.2 parent.toList then some (String.ofList header.1) else none

end Lineage.Lexical.BaseList
