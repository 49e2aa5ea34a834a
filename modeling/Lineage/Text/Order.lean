/-!
# The order of texts

Lists are ordered by the first item in which they differ, and a list that another one goes on from
comes before it. Texts are ordered in this way by the code points of their characters, and lists of
texts by the texts in them. The order depends on nothing but these definitions: no locale and no
letter case has a part in it.

## Main results

* `lexicographic_isOrder`: the lists over an order are in an order themselves.
* `precedes_isOrder`: so are texts.
-/

namespace Lineage.Text

/-- The relation is a total order. -/
structure IsOrder {α : Type} (before : α → α → Bool) : Prop where
  total : ∀ a b, before a b = true ∨ before b a = true
  trans : ∀ a b c, before a b = true → before b c = true → before a c = true
  antisymm : ∀ a b, before a b = true → before b a = true → a = b

/-- The order of lists by the first item in which they differ. -/
def lexicographic {α : Type} [DecidableEq α] (before : α → α → Bool) : List α → List α → Bool
  | [], _ => true
  | _ :: _, [] => false
  | a :: as, b :: bs => if a = b then lexicographic before as bs else before a b

section

variable {α : Type} [DecidableEq α] {before : α → α → Bool}

theorem lexicographic_total (order : IsOrder before) :
    ∀ as bs, lexicographic before as bs = true ∨ lexicographic before bs as = true
  | [], _ => .inl rfl
  | _ :: _, [] => .inr rfl
  | a :: as, b :: bs => by
      by_cases same : a = b
      · simpa [lexicographic, same] using lexicographic_total order as bs
      · simpa [lexicographic, same, Ne.symm same] using order.total a b

theorem lexicographic_antisymm (order : IsOrder before) :
    ∀ as bs, lexicographic before as bs = true → lexicographic before bs as = true → as = bs
  | [], [], _, _ => rfl
  | [], _ :: _, _, h => by simp [lexicographic] at h
  | _ :: _, [], h, _ => by simp [lexicographic] at h
  | a :: as, b :: bs, hab, hba => by
      by_cases same : a = b
      · subst same
        simp only [lexicographic, if_true] at hab hba
        rw [lexicographic_antisymm order as bs hab hba]
      · simp only [lexicographic, same, Ne.symm same, if_false] at hab hba
        exact absurd (order.antisymm a b hab hba) same

theorem lexicographic_trans (order : IsOrder before) :
    ∀ as bs cs, lexicographic before as bs = true → lexicographic before bs cs = true →
      lexicographic before as cs = true
  | [], _, _, _, _ => rfl
  | _ :: _, [], _, h, _ => by simp [lexicographic] at h
  | _ :: _, _ :: _, [], _, h => by simp [lexicographic] at h
  | a :: as, b :: bs, c :: cs, hab, hbc => by
      by_cases ab : a = b
      · subst ab
        by_cases ac : a = c
        · subst ac
          simp only [lexicographic, if_true] at hab hbc ⊢
          exact lexicographic_trans order as bs cs hab hbc
        · simpa [lexicographic, ac] using hbc
      · by_cases bc : b = c
        · subst bc
          simpa [lexicographic, ab] using hab
        · simp only [lexicographic, ab, bc, if_false] at hab hbc
          have ac : a ≠ c := by
            rintro rfl
            exact ab (order.antisymm a b hab hbc)
          simpa [lexicographic, ac] using order.trans a b c hab hbc

theorem lexicographic_isOrder (order : IsOrder before) : IsOrder (lexicographic before) where
  total := lexicographic_total order
  trans := lexicographic_trans order
  antisymm := lexicographic_antisymm order

end

/-- The order of characters by their code points. -/
def charPrecedes (c d : Char) : Bool := Nat.ble c.toNat d.toNat

theorem charPrecedes_isOrder : IsOrder charPrecedes where
  total c d := by
    simp only [charPrecedes, Nat.ble_eq]
    exact Nat.le_total _ _
  trans a b c hab hbc := by
    simp only [charPrecedes, Nat.ble_eq] at *
    exact Nat.le_trans hab hbc
  antisymm c d hcd hdc := by
    simp only [charPrecedes, Nat.ble_eq] at *
    exact Char.toNat_inj.mp (Nat.le_antisymm hcd hdc)

/-- The order of texts by the code points of their characters. -/
def precedes (a b : String) : Bool := lexicographic charPrecedes a.toList b.toList

theorem precedes_isOrder : IsOrder precedes where
  total a b := lexicographic_total charPrecedes_isOrder a.toList b.toList
  trans a b c := lexicographic_trans charPrecedes_isOrder a.toList b.toList c.toList
  antisymm a b hab hba :=
    String.toList_inj.mp (lexicographic_antisymm charPrecedes_isOrder a.toList b.toList hab hba)

end Lineage.Text
