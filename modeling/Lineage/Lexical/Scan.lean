/-!
# Scanning a text for matches

A rule that recognises something at a position becomes a search in two ways: `existsAt` asks
whether it holds anywhere, and `matchesFrom` collects its matches from left to right, each search
resuming where the previous match ended, so that matches never overlap.
-/

namespace Lineage.Lexical

/-- Something recognised at a position: what it yields and how many characters it covers. -/
structure Found (α : Type) where
  value : α
  length : Nat

/-- A rule for positions, given the character before and the characters from there on. -/
abbrev Rule (α : Type) := Option Char → List Char → α

/-- The rule holds at some position of the text, its end included. -/
def existsAt (rule : Rule Bool) : (before : Option Char) → (text : List Char) → Bool
  | before, [] => rule before []
  | before, c :: text => rule before (c :: text) || existsAt rule (some c) text

/-- The first match from the left. -/
def firstMatch? {α : Type} (rule : Rule (Option α)) :
    (before : Option Char) → (text : List Char) → Option α
  | before, [] => rule before []
  | before, c :: text =>
      match rule before (c :: text) with
      | some value => some value
      | none => firstMatch? rule (some c) text

/-- What a rule finds at every position, whether or not the matches overlap. -/
def everywhere {α : Type} (rule : Rule (Option α)) :
    (before : Option Char) → (text : List Char) → List α
  | before, [] => (rule before []).toList
  | before, c :: text => (rule before (c :: text)).toList ++ everywhere rule (some c) text

/--
The matches from left to right without overlap. The first `covered` characters belong to the match
found last and are passed over.
-/
def matchesFrom {α : Type} (rule : Rule (Option (Found α))) :
    (covered : Nat) → (before : Option Char) → (text : List Char) → List α
  | _, _, [] => []
  | covered + 1, _, c :: text => matchesFrom rule covered (some c) text
  | 0, before, c :: text =>
      match rule before (c :: text) with
      | some found => found.value :: matchesFrom rule (found.length - 1) (some c) text
      | none => matchesFrom rule 0 (some c) text

/-- All matches of a rule in a text, from left to right without overlap. -/
def allMatches {α : Type} (rule : Rule (Option (Found α))) (text : List Char) : List α :=
  matchesFrom rule 0 none text

end Lineage.Lexical
