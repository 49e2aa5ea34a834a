/-!
# Control sequences

A terminal is told about colours and the place of its cursor by control sequences within the text:
an escape character, an opening bracket, any digits, semicolons and question marks, and a letter,
all of them ASCII. A text that is not shown on a terminal is written without them. They are taken
out in one pass from the left, so what is left may again read as one; an escape character that
starts none stays.

## Main results

* `withoutSequences_eq_self`: a text without escape characters stays as it is.
* `withoutSequences_sublist`: nothing is added and nothing changes places.
-/

namespace Lineage.Text

/-- What may stand between the bracket of a control sequence and its letter. -/
def isSequenceMark (c : Char) : Bool := c.isDigit || c = ';' || c = '?'

/-- The length of the control sequence that a text starts with. -/
def sequenceLength? : List Char → Option Nat
  | '\x1b' :: '[' :: text =>
      let marks := text.takeWhile isSequenceMark
      match text.drop marks.length with
      | c :: _ => if c.isAlpha then some (marks.length + 3) else none
      | [] => none
  | _ => none

/--
The text without its control sequences, of which the first `covered` characters belong to the one
found last.
-/
def withoutSequencesFrom : (covered : Nat) → (text : List Char) → List Char
  | _, [] => []
  | covered + 1, _ :: text => withoutSequencesFrom covered text
  | 0, c :: text =>
      match sequenceLength? (c :: text) with
      | some length => withoutSequencesFrom (length - 1) text
      | none => c :: withoutSequencesFrom 0 text

/-- The text without its control sequences. -/
def withoutSequences (text : String) : String :=
  String.ofList (withoutSequencesFrom 0 text.toList)

theorem sequenceLength?_eq_none {c : Char} {text : List Char} (other : c ≠ '\x1b') :
    sequenceLength? (c :: text) = none := by
  unfold sequenceLength?
  split
  · next start =>
      obtain ⟨same, _⟩ := List.cons.inj start
      exact absurd same other
  · rfl

theorem withoutSequencesFrom_eq_self {text : List Char} (plain : '\x1b' ∉ text) :
    withoutSequencesFrom 0 text = text := by
  induction text with
  | nil => rfl
  | cons c text ih =>
      simp only [List.mem_cons, not_or] at plain
      rw [withoutSequencesFrom, sequenceLength?_eq_none (Ne.symm plain.1), ih plain.2]

theorem withoutSequences_eq_self {text : String} (plain : '\x1b' ∉ text.toList) :
    withoutSequences text = text := by
  rw [withoutSequences, withoutSequencesFrom_eq_self plain, String.ofList_toList]

theorem withoutSequencesFrom_sublist (covered : Nat) (text : List Char) :
    (withoutSequencesFrom covered text).Sublist text := by
  fun_induction withoutSequencesFrom covered text with
  | case1 => exact List.Sublist.slnil
  | case2 covered c text ih => exact ih.cons c
  | case3 c text length found ih => exact ih.cons c
  | case4 c text found ih => exact ih.cons_cons c

theorem withoutSequences_sublist (text : String) :
    (withoutSequences text).toList.Sublist text.toList := by
  rw [withoutSequences, String.toList_ofList]
  exact withoutSequencesFrom_sublist 0 text.toList

end Lineage.Text
