import Lineage.Lexical.Boundary
import Lineage.Lexical.Scan

/-!
# Class declarations

A class is declared where the keyword `class` is followed by blanks and a name. Comments and string
literals are not told apart from code: the rule is a lexical one. `declares` looks for one given
name, which need not be a word; `names` lists the words that stand after the keyword.
-/

namespace Lineage.Lexical.Declaration

/-- The keyword of a declaration. -/
def keyword : List Char := ['c', 'l', 'a', 's', 's']

/-- A declaration of the given name starts at the position. -/
def declaresAt (name : List Char) : Rule Bool := fun before text =>
  match afterKeyword? keyword before text with
  | none => false
  | some rest => (gapAndName? name rest).isSome

/-- The text declares a class of that name. -/
def declares (text name : String) : Bool :=
  existsAt (declaresAt name.toList) none text.toList

/-- The name declared at the position: the longest word after the keyword and its blanks. -/
def nameAt? : Rule (Option (Found (List Char))) := fun before text =>
  match afterKeyword? keyword before text with
  | none => none
  | some rest =>
      let blanks := gap rest
      let name := word (pastGap rest)
      if blanks.isEmpty || name.isEmpty then none
      else some ⟨name, keyword.length + blanks.length + name.length⟩

/-- The names that a text declares, in the order of the text. -/
def names (text : String) : List String :=
  (allMatches nameAt? text.toList).map String.ofList

/-- The names that stand after the keyword anywhere in a text, overlapping declarations included. -/
def candidates (text : String) : List String :=
  (everywhere nameAt? none text.toList).map fun found => String.ofList found.value

end Lineage.Lexical.Declaration
