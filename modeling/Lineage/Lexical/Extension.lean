import Lineage.Lexical.Declaration

/-!
# Declarations of subclasses

A class extends another where its declaration goes on with blanks, the keyword `extends`, blanks
and the parent's name up to a word boundary.
-/

namespace Lineage.Lexical.Extension

/-- The keyword between a class and its parent. -/
def keyword : List Char := ['e', 'x', 't', 'e', 'n', 'd', 's']

/-- The length of `extends` and the parent with the blanks before each of them. -/
def clause? (parent text : List Char) : Option Nat :=
  let blanks := gap text
  if blanks.isEmpty then none
  else
    match Text.after? keyword (pastGap text) with
    | none => none
    | some rest =>
        match gapAndName? parent rest with
        | none => none
        | some length => some (blanks.length + keyword.length + length)

/-- The class declared at the position, if it extends the parent. -/
def childAt? (parent : List Char) : Rule (Option (Found (List Char))) := fun before text =>
  match Declaration.nameAt? before text with
  | none => none
  | some declared =>
      match clause? parent (text.drop declared.length) with
      | none => none
      | some length => some ⟨declared.value, declared.length + length⟩

/-- The classes that a text declares as extending the parent, in the order of the text. -/
def children (text parent : String) : List String :=
  (allMatches (childAt? parent.toList) text.toList).map String.ofList

end Lineage.Lexical.Extension
