import Lineage.Lexical.Scan

/-!
# Positions of a text

A position cuts a text in two: the characters that lead to it and the rest.  A rule sees of the
former only the last one, or, at the start of the text, whatever came before it.

## Main results

* `existsAt_iff`: a search succeeds exactly if the rule holds at some position.
* `mem_everywhere_iff`: `everywhere` collects what the rule finds at the positions of the text.
* `exists_of_firstMatch?`, `exists_of_mem_allMatches`: every match was found at some position,
  although the search for all of them passes over the positions that an earlier match covers.
-/

namespace Lineage.Lexical

/-- The character before the position that `lead` leads to. -/
def charBefore (before : Option Char) (lead : List Char) : Option Char := lead.getLast?.or before

@[simp] theorem charBefore_nil (before : Option Char) : charBefore before [] = before := rfl

@[simp] theorem charBefore_cons (before : Option Char) (c : Char) (lead : List Char) :
    charBefore before (c :: lead) = charBefore (some c) lead := by
  cases lead with
  | nil => rfl
  | cons d lead => simp [charBefore, List.getLast?_cons]

theorem charBefore_append (before : Option Char) (lead more : List Char) :
    charBefore before (lead ++ more) = charBefore (charBefore before lead) more := by
  induction lead generalizing before with
  | nil => rfl
  | cons c lead ih => simp only [List.cons_append, charBefore_cons, ih]

private theorem exists_cut_nil {P : List Char → List Char → Prop} :
    (∃ lead rest, [] = lead ++ rest ∧ P lead rest) ↔ P [] [] := by
  constructor
  · rintro ⟨lead, rest, hcut, h⟩
    obtain ⟨rfl, rfl⟩ := List.append_eq_nil_iff.mp hcut.symm
    exact h
  · intro h
    exact ⟨[], [], rfl, h⟩

/-- A cut of a text is at its start or further on. -/
private theorem exists_cut_cons {P : List Char → List Char → Prop} {c : Char} {text : List Char} :
    (∃ lead rest, c :: text = lead ++ rest ∧ P lead rest) ↔
      P [] (c :: text) ∨ ∃ lead rest, text = lead ++ rest ∧ P (c :: lead) rest := by
  constructor
  · rintro ⟨lead, rest, hcut, h⟩
    cases lead with
    | nil =>
        rw [List.nil_append] at hcut
        exact .inl (hcut ▸ h)
    | cons d lead =>
        rw [List.cons_append, List.cons.injEq] at hcut
        obtain ⟨rfl, hcut⟩ := hcut
        exact .inr ⟨lead, rest, hcut, h⟩
  · rintro (h | ⟨lead, rest, rfl, h⟩)
    · exact ⟨[], c :: text, rfl, h⟩
    · exact ⟨c :: lead, rest, rfl, h⟩

theorem existsAt_iff {rule : Rule Bool} {before : Option Char} {text : List Char} :
    existsAt rule before text = true ↔
      ∃ lead rest, text = lead ++ rest ∧ rule (charBefore before lead) rest = true := by
  induction text generalizing before with
  | nil => rw [existsAt, exists_cut_nil, charBefore_nil]
  | cons c text ih =>
      rw [existsAt, Bool.or_eq_true, ih, exists_cut_cons]
      simp only [charBefore_nil, charBefore_cons]

theorem mem_everywhere_iff {α : Type} {rule : Rule (Option α)} {before : Option Char}
    {text : List Char} {value : α} :
    value ∈ everywhere rule before text ↔
      ∃ lead rest, text = lead ++ rest ∧ rule (charBefore before lead) rest = some value := by
  induction text generalizing before with
  | nil => rw [everywhere, Option.mem_toList, exists_cut_nil, charBefore_nil]
  | cons c text ih =>
      rw [everywhere, List.mem_append, Option.mem_toList, ih, exists_cut_cons]
      simp only [charBefore_nil, charBefore_cons]

/-- The first match is found at some position. -/
theorem exists_of_firstMatch? {α : Type} {rule : Rule (Option α)} {before : Option Char}
    {text : List Char} {value : α} (h : firstMatch? rule before text = some value) :
    ∃ lead rest, text = lead ++ rest ∧ rule (charBefore before lead) rest = some value := by
  induction text generalizing before with
  | nil => exact ⟨[], [], rfl, h⟩
  | cons c text ih =>
      rw [firstMatch?] at h
      split at h
      · next found hfound =>
          cases h
          exact ⟨[], c :: text, rfl, hfound⟩
      · obtain ⟨lead, rest, rfl, hrule⟩ := ih h
        exact ⟨c :: lead, rest, rfl, by rwa [charBefore_cons]⟩

/-- Whatever part of the text is still covered, a later match is found at a position of its own. -/
theorem exists_of_mem_matchesFrom {α : Type} {rule : Rule (Option (Found α))} {covered : Nat}
    {before : Option Char} {text : List Char} {value : α}
    (h : value ∈ matchesFrom rule covered before text) :
    ∃ lead rest found, text = lead ++ rest ∧
      rule (charBefore before lead) rest = some found ∧ found.value = value := by
  induction text generalizing covered before with
  | nil => simp [matchesFrom] at h
  | cons c text ih =>
      -- A match further on keeps its position; only the text before it has grown.
      have later : ∀ covered, value ∈ matchesFrom rule covered (some c) text →
          ∃ lead rest found, c :: text = lead ++ rest ∧
            rule (charBefore before lead) rest = some found ∧ found.value = value := by
        intro covered hmem
        obtain ⟨lead, rest, found, rfl, hrule, hvalue⟩ := ih hmem
        exact ⟨c :: lead, rest, found, rfl, by rwa [charBefore_cons], hvalue⟩
      cases covered with
      | succ covered => exact later covered h
      | zero =>
          rw [matchesFrom] at h
          split at h
          · next found hrule =>
              rcases List.mem_cons.mp h with rfl | h
              · exact ⟨[], c :: text, found, rfl, hrule, rfl⟩
              · exact later _ h
          · exact later _ h

/-- There are no matches where the rule recognises nothing. -/
theorem matchesFrom_eq_nil {α : Type} {rule : Rule (Option (Found α))} {before : Option Char}
    {text : List Char}
    (h : ∀ lead rest, text = lead ++ rest → rule (charBefore before lead) rest = none)
    (covered : Nat) : matchesFrom rule covered before text = [] := by
  rw [List.eq_nil_iff_forall_not_mem]
  intro value hvalue
  obtain ⟨lead, rest, found, hcut, hfound, -⟩ := exists_of_mem_matchesFrom hvalue
  rw [h lead rest hcut] at hfound
  cases hfound

theorem exists_of_mem_allMatches {α : Type} {rule : Rule (Option (Found α))} {text : List Char}
    {value : α} (h : value ∈ allMatches rule text) :
    ∃ lead rest found, text = lead ++ rest ∧
      rule (charBefore none lead) rest = some found ∧ found.value = value :=
  exists_of_mem_matchesFrom h

end Lineage.Lexical
