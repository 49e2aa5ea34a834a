import Lineage.Proofs.Scan.Kinds

/-!
# Overrides under one key

Every setting is overridden by the value under its own key, and in one of two ways.  A list of
extensions or of directories is replaced as soon as there is a value; a text is replaced only by a
value that is not empty, and by the written form of it.  This module says what either way gives, and
that it gives the same again when it starts from what it gave.

## Main results

* `override_again`, `overrideText_again`: an override that is applied twice changes nothing the
  second time.
* `override_of_none`, `overrideText_of_not_given`: what is not overridden keeps its value.
* `ne_empty_of_overrideText`: no text setting becomes empty.
-/

namespace Lineage.Settings

variable {values others : Table} {key text : String}

/-! ## The same value under the key -/

theorem override_congr {α : Type} (h : Keyed.get? key values = Keyed.get? key others) (current : α)
    (read : String → Value → Except SettingsError α) :
    override values key current read = override others key current read := by
  have hsame : values.get? key = others.get? key := h
  rw [override, override, hsame]

theorem overrideText_congr (h : Keyed.get? key values = Keyed.get? key others) (current : String) :
    overrideText values key current = overrideText others key current := by
  have hsame : values.get? key = others.get? key := h
  rw [overrideText, overrideText, hsame]

/-! ## Values that are replaced -/

theorem override_of_some {α : Type} {value : Value} (h : Keyed.get? key values = some value)
    (current : α) (read : String → Value → Except SettingsError α) :
    override values key current read = read key value := by
  have hsome : values.get? key = some value := h
  rw [override, hsome]

theorem override_of_none {α : Type} (h : Keyed.get? key values = none) (current : α)
    (read : String → Value → Except SettingsError α) :
    override values key current read = .ok current := by
  have hnone : values.get? key = none := h
  rw [override, hnone]

theorem override_again {α : Type} {current found : α}
    {read : String → Value → Except SettingsError α}
    (h : override values key current read = .ok found) :
    override values key found read = .ok found := by
  cases hvalue : Keyed.get? key values with
  | none => exact override_of_none hvalue found read
  | some value =>
      rw [override_of_some hvalue] at h ⊢
      exact h

/-! ## Texts that are replaced -/

/-- The key has a value that is not empty. -/
def gives (values : Table) (key : String) : Bool := (Keyed.get? key values).any Value.isGiven

theorem overrideText_of_not_given (h : gives values key = false) (current : String) :
    overrideText values key current = .ok current := by
  unfold gives at h
  unfold overrideText
  split
  · rfl
  · next value hvalue =>
      have hsome : Keyed.get? key values = some value := hvalue
      rw [hsome, Option.any_some] at h
      rw [if_neg (by simp [h])]

theorem exists_overrideText_of_given (h : gives values key = true) :
    ∃ value, value.isGiven = true ∧
      ∀ current, overrideText values key current = written key value := by
  unfold gives at h
  rw [Option.any_eq_true] at h
  obtain ⟨value, hvalue, hgiven⟩ := h
  have hsome : values.get? key = some value := hvalue
  refine ⟨value, hgiven, fun current => ?_⟩
  rw [overrideText, hsome]
  exact if_pos hgiven

/-- A text that is not empty is taken as it is. -/
theorem overrideText_of_text (h : Keyed.get? key values = some (.scalar (.text text)))
    (hne : text.isEmpty = false) (current : String) :
    overrideText values key current = .ok text := by
  have hsome : values.get? key = some (.scalar (.text text)) := h
  have hgiven : (Value.scalar (.text text)).isGiven = true := by
    rw [Value.isGiven, hne]
    rfl
  rw [overrideText, hsome]
  simp only
  rw [if_pos hgiven]
  rfl

theorem overrideText_cases (values : Table) (key current : String) :
    (∃ text, overrideText values key current = .ok text) ∨
      overrideText values key current = .error (.noForm key) := by
  rw [overrideText]
  split
  · exact .inl ⟨current, rfl⟩
  · next value _ =>
      split
      · rw [written]
        cases value.written? with
        | some text => exact .inl ⟨text, rfl⟩
        | none => exact .inr rfl
      · exact .inl ⟨current, rfl⟩

theorem overrideText_again {current found : String}
    (h : overrideText values key current = .ok found) :
    overrideText values key found = .ok found := by
  cases hgiven : gives values key with
  | false => exact overrideText_of_not_given hgiven found
  | true =>
      obtain ⟨value, -, hvalue⟩ := exists_overrideText_of_given hgiven
      rw [hvalue] at h ⊢
      exact h

/-! ## Written forms -/

theorem repr_ne_empty (number : Int) : number.repr ≠ "" := by
  intro h
  rw [Int.repr_eq_if] at h
  split at h
  · exact Nat.repr_ne_empty h
  · simp [String.append_eq_empty_iff] at h

/-- What is not empty has no empty written form. -/
theorem ne_empty_of_written? {value : Value} (hgiven : value.isGiven = true)
    (h : value.written? = some text) : text ≠ "" := by
  cases value with
  | scalar value =>
      cases value with
      | null => cases hgiven
      | bool value =>
          cases value with
          | false => cases hgiven
          | true =>
              cases h
              decide
      | int number =>
          rw [Value.written?, Scalar.written?] at h
          split at h
          · cases h
            exact repr_ne_empty number
          · cases h
      | text value =>
          cases h
          rw [Value.isGiven, Bool.not_eq_true', String.isEmpty_eq_false_iff] at hgiven
          exact hgiven
      | measure value =>
          rintro rfl
          exact value.written_ne_empty h
  | list items =>
      obtain ⟨forms, -, rfl⟩ := Option.map_eq_some_iff.mp h
      simp [String.append_eq_empty_iff]
  | table entries =>
      obtain ⟨forms, -, rfl⟩ := Option.map_eq_some_iff.mp h
      simp [String.append_eq_empty_iff]

/-- No text setting becomes empty. -/
theorem ne_empty_of_overrideText {current found : String} (hcurrent : current ≠ "")
    (h : overrideText values key current = .ok found) : found ≠ "" := by
  cases hgiven : gives values key with
  | false =>
      rw [overrideText_of_not_given hgiven] at h
      cases h
      exact hcurrent
  | true =>
      obtain ⟨value, hnonempty, hvalue⟩ := exists_overrideText_of_given hgiven
      rw [hvalue, written] at h
      split at h
      · next text htext =>
          cases h
          exact ne_empty_of_written? hnonempty htext
      · cases h

end Lineage.Settings
