import Lineage.Export.Json

/-!
# The characters of a JSON export

Whatever the names and the texts in a tree are, its export consists of printable ASCII and line
feeds.  So it has no control sequences that a console would take out, and no line ends that a reader
of files would fold.

## Main results

* `allPlain_write`: an exported text consists of plain characters.
* `not_mem_toList_render`: what is not plain does not stand in an export.
-/

namespace Lineage.Json

/-- A printable character of ASCII or a line feed. -/
def IsPlain (c : Char) : Prop := c = '\n' ∨ 0x20 ≤ c.toNat ∧ c.toNat < 0x7F

instance (c : Char) : Decidable (IsPlain c) := inferInstanceAs (Decidable (_ ∨ _))

/-- All characters of the text are plain. -/
def AllPlain (text : List Char) : Prop := ∀ c ∈ text, IsPlain c

instance (text : List Char) : Decidable (AllPlain text) := List.decidableBAll IsPlain text

section

variable {c : Char} {text other : List Char}

theorem AllPlain.append (h : AllPlain text) (hother : AllPlain other) :
    AllPlain (text ++ other) := by
  intro c hc
  rcases List.mem_append.mp hc with hc | hc
  · exact h c hc
  · exact hother c hc

theorem AllPlain.cons (hc : IsPlain c) (h : AllPlain text) : AllPlain (c :: text) := by
  intro d hd
  rcases List.mem_cons.mp hd with rfl | hd
  · exact hc
  · exact h d hd

theorem allPlain_hexDigits (width value : Nat) : AllPlain (Text.hexDigits width value) := by
  induction width generalizing value with
  | zero => exact fun c hc => absurd hc List.not_mem_nil
  | succ width ih =>
      have hdigits : ∀ digit < 16, IsPlain (Text.hexDigit digit) := by decide
      refine (ih (value / 16)).append fun c hc => ?_
      rw [List.mem_singleton.mp hc]
      exact hdigits _ (Nat.mod_lt value (by decide))

theorem allPlain_unitEscape (unit : Nat) : AllPlain (unitEscape unit) :=
  .cons (by decide) (.cons (by decide) (allPlain_hexDigits 4 unit))

theorem allPlain_escapeChar (c : Char) : AllPlain (escapeChar c) := by
  rw [escapeChar]
  split
  · next hquoted =>
      rcases hquoted with rfl | rfl
      · decide
      · decide
  split
  · decide
  split
  · decide
  split
  · decide
  split
  · decide
  split
  · decide
  split
  · next hprintable =>
      intro d hd
      rw [List.mem_singleton.mp hd]
      exact .inr hprintable
  split
  · exact allPlain_unitEscape c.toNat
  · exact (allPlain_unitEscape _).append (allPlain_unitEscape _)

theorem allPlain_string (text : String) : AllPlain (string text) := by
  refine .append (.cons (by decide) fun c hc => ?_) (by decide)
  obtain ⟨d, -, hd⟩ := List.mem_flatMap.mp hc
  exact allPlain_escapeChar d c hd

theorem allPlain_repr (value : Int) : AllPlain value.repr.toList := by
  have hdigits (n : Nat) : AllPlain n.repr.toList := by
    intro c hc
    rw [Nat.toList_repr] at hc
    have hdigit := Nat.isDigit_of_mem_toDigits (by decide) (by decide) hc
    obtain ⟨hfirst, hlast⟩ := Char.isDigit_iff_toNat.mp hdigit
    exact .inr ⟨Nat.le_trans (by decide) hfirst, Nat.lt_of_le_of_lt hlast (by decide)⟩
  rw [Int.repr_eq_if]
  split
  · exact hdigits _
  · rw [String.toList_append]
    exact .append (by decide) (hdigits _)

theorem allPlain_lineStart (level : Nat) : AllPlain (lineStart level) := by
  refine .cons (by decide) fun c hc => ?_
  rw [List.eq_of_mem_replicate hc]
  decide

mutual

theorem allPlain_write (level : Nat) (value : Json) : AllPlain (value.write level) := by
  match value with
  | int value =>
      rw [write]
      exact allPlain_repr value
  | text value =>
      rw [write]
      exact allPlain_string value
  | array [] =>
      rw [write]
      decide
  | array (item :: items) =>
      rw [write]
      exact ((((AllPlain.cons (by decide) (allPlain_lineStart (level + 1))).append
        (allPlain_write (level + 1) item)).append (allPlain_writeItems (level + 1) items)).append
        (allPlain_lineStart level)).append (by decide)
  | object [] =>
      rw [write]
      decide
  | object (field :: fields) =>
      rw [write]
      exact ((((AllPlain.cons (by decide) (allPlain_lineStart (level + 1))).append
        (allPlain_writeField (level + 1) field)).append
        (allPlain_writeFields (level + 1) fields)).append
        (allPlain_lineStart level)).append (by decide)

theorem allPlain_writeItems (level : Nat) (items : List Json) :
    AllPlain (writeItems level items) := by
  match items with
  | [] =>
      rw [writeItems]
      decide
  | item :: items =>
      rw [writeItems]
      exact ((AllPlain.cons (by decide) (allPlain_lineStart level)).append
        (allPlain_write level item)).append (allPlain_writeItems level items)

theorem allPlain_writeField (level : Nat) (field : String × Json) :
    AllPlain (writeField level field) := by
  match field with
  | (name, value) =>
      rw [writeField]
      exact (allPlain_string name).append
        (.cons (by decide) (.cons (by decide) (allPlain_write level value)))

theorem allPlain_writeFields (level : Nat) (fields : List (String × Json)) :
    AllPlain (writeFields level fields) := by
  match fields with
  | [] =>
      rw [writeFields]
      decide
  | field :: fields =>
      rw [writeFields]
      exact ((AllPlain.cons (by decide) (allPlain_lineStart level)).append
        (allPlain_writeField level field)).append (allPlain_writeFields level fields)

end

end

/-- What is not plain does not stand in an export. -/
theorem not_mem_toList_render {value : Json} {c : Char} (h : ¬ IsPlain c) :
    c ∉ value.render.toList := by
  rw [render, String.toList_ofList]
  exact fun hc => h (allPlain_write 0 value c hc)

end Lineage.Json
