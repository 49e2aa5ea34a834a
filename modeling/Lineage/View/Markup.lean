import Lineage.Text.Basic

/-!
# Console markup

Labels are styled by markup in square brackets. A name that would itself be taken for markup is
written with a backslash before its bracket, and the backslashes already there are doubled, so that
the console shows the name as it is.
-/

namespace Lineage.View.Markup

/-- The characters that may follow the opening bracket of a markup tag. -/
def startsTag (c : Char) : Bool := c.isLower || c = '#' || c = '/' || c = '@'

/-- The text goes on to a closing bracket without opening another. -/
def closes : List Char → Bool
  | [] => false
  | c :: text => if c = ']' then true else if c = '[' then false else closes text

/-- A markup tag starts with the text. -/
def isTag : List Char → Bool
  | '[' :: c :: text => startsTag c && closes text
  | _ => false

/-- Escapes what follows a number of backslashes. -/
def escapeAfter (backslashes : Nat) : List Char → List Char
  | [] => List.replicate backslashes '\\'
  | c :: text =>
      if c = '\\' then escapeAfter (backslashes + 1) text
      else
        let written := if isTag (c :: text) then 2 * backslashes + 1 else backslashes
        List.replicate written '\\' ++ c :: escapeAfter 0 text

/--
A last backslash would escape the markup after it, so it is doubled if it stands alone.
-/
def guardEnd (text : List Char) : List Char :=
  match text.reverse with
  | '\\' :: '\\' :: _ => text
  | '\\' :: _ => text ++ ['\\']
  | _ => text

/-- The text as it must be written in markup. -/
def escape (text : String) : String :=
  String.ofList (guardEnd (escapeAfter 0 text.toList))

/--
What a console without styles shows of a text in markup. `inTag` tells that the text starts inside a
markup tag, of which nothing is shown; `backslashes` counts those that stand right before the text.
-/
def plainFrom (inTag : Bool) (backslashes : Nat) : List Char → List Char
  | [] => List.replicate backslashes '\\'
  | c :: text =>
      if inTag then plainFrom (c ≠ ']') 0 text
      else if c = '\\' then plainFrom false (backslashes + 1) text
      else if isTag (c :: text) then
        let shown := List.replicate (backslashes / 2) '\\'
        if backslashes % 2 = 0 then shown ++ plainFrom true 0 text
        else shown ++ c :: plainFrom false 0 text
      else List.replicate backslashes '\\' ++ c :: plainFrom false 0 text

/-- What a console without styles shows of a text in markup. -/
def plain (text : String) : String := String.ofList (plainFrom false 0 text.toList)

end Lineage.View.Markup
