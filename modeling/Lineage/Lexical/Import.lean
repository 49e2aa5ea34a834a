import Lineage.Lexical.Boundary
import Lineage.Lexical.Scan

/-!
# Component imports

A line imports a component where the keyword `import` is followed by a clause, the keyword `from`
and a quoted `namespace/component`, all separated by blanks. The clause consists of word
characters, blanks, braces, commas, dollar signs and asterisks. None of these is a quote, so the
quote that opens the module's name is the first one after the keyword, and the word before it must
be `from`.
-/

namespace Lineage.Lexical.Import

/-- The keyword of an import. -/
def keyword : List Char := ['i', 'm', 'p', 'o', 'r', 't']

/-- The keyword before the module, last letter first. -/
def sourceKeyword : List Char := ['m', 'o', 'r', 'f']

/-- The characters of a clause. -/
def isClause (c : Char) : Bool :=
  Unicode.isWord c || Unicode.isBlank c || c = '$' || c = '\x7b' || c = '\x7d' || c = ',' || c = '*'

/-- The quotes around a module's name. -/
def isQuote (c : Char) : Bool := c = '\'' || c = '"'

/--
The text between `import` and the quote has the form: blanks, a clause, blanks, `from`, blanks.
Read from its end, that is a gap, the keyword, and at least three more characters of which the
outer ones are blank.
-/
def isClauseWithSource (region : List Char) : Bool :=
  let fromEnd := region.reverse
  if (gap fromEnd).isEmpty then false
  else
    match Text.after? sourceKeyword (pastGap fromEnd) with
    | none => false
    | some clause =>
        3 ≤ clause.length && clause.head?.any Unicode.isBlank && clause.getLast?.any Unicode.isBlank

/-- The component in a quoted module name of the namespace. -/
def module? (home : List Char) : (text : List Char) → Option (List Char)
  | [] => none
  | quote :: text =>
      if isQuote quote then
        match Text.after? (home ++ ['/']) text with
        | none => none
        | some rest =>
            let component := word rest
            if component.isEmpty then none
            else if (pastWord rest).head?.any isQuote then some component else none
      else none

/-- The component imported at the position. -/
def componentAt? (home : List Char) : Rule (Option (List Char)) := fun before text =>
  match afterKeyword? keyword before text with
  | none => none
  | some rest =>
      if isClauseWithSource (rest.takeWhile isClause) then module? home (rest.dropWhile isClause)
      else none

/--
The component that a line imports from the namespace. Lines without the keyword or without the
namespace are passed over at once.
-/
def component? (line home : String) : Option String :=
  let text := line.toList
  if Text.occurs keyword text && Text.occurs (home.toList ++ ['/']) text then
    (firstMatch? (componentAt? home.toList) none text).map String.ofList
  else none

end Lineage.Lexical.Import
