import Lineage.Text.Basic
import Lineage.Unicode.Word

/-!
# Words and their boundaries

A position in a text is given by the character before it, if there is one, and the characters from
it on. The lexical rules ask of a position whether a keyword starts there and whether the name they
look for ends at a word boundary: between a word character and something else, the ends of the text
counting as something else.
-/

namespace Lineage.Lexical

open Unicode (isWord isBlank)

/-- A word character stands there. -/
def isWordAt (c : Option Char) : Bool := c.any isWord

/-- Exactly one side of the position is a word character. -/
def atBoundary (before : Option Char) (text : List Char) : Bool :=
  isWordAt before != isWordAt text.head?

/-- What follows a keyword that starts at the position and does not continue an earlier word. -/
def afterKeyword? (keyword : List Char) (before : Option Char) (text : List Char) :
    Option (List Char) :=
  match Text.after? keyword text with
  | none => none
  | some rest => if isWordAt before then none else some rest

/-- The blanks that a text starts with. -/
def gap (text : List Char) : List Char := text.takeWhile isBlank

/-- The text after the blanks that it starts with. -/
def pastGap (text : List Char) : List Char := text.dropWhile isBlank

/-- The longest word that a text starts with. -/
def word (text : List Char) : List Char := text.takeWhile isWord

/-- The text after the longest word that it starts with. -/
def pastWord (text : List Char) : List Char := text.dropWhile isWord

/-- The text starts with the name, and the name ends at a word boundary. -/
def startsWithName (name text : List Char) : Bool :=
  match Text.after? name text with
  | none => false
  | some rest => atBoundary name.getLast? rest

/--
The length of blanks and name, if the text starts with at least one blank and the name follows. A
name that itself starts with blanks can stand after various numbers of blanks: the largest counts.
-/
def gapAndName? (name : List Char) : (text : List Char) → Option Nat
  | [] => none
  | c :: text =>
      if isBlank c then
        match gapAndName? name text with
        | some length => some (length + 1)
        | none => if startsWithName name text then some (name.length + 1) else none
      else none

end Lineage.Lexical
