import Lineage.Config

/-!
# What configurations hold

A configuration that is written and read again holds the same, though its entries may come back in
another order: the plain entries of a table are written before the tables in it.  So two
configurations are compared by what they hold under each key, and so are the tables in them.

## Main results

* `content_table`: the content of a table is that of its values under their keys.
-/

namespace Lineage

/-- What a value holds, whatever the order of the entries in its tables. -/
inductive Content where
  | scalar (value : Scalar)
  | list (items : List Content)
  | table (under : String → Option Content)

namespace Value

mutual

/-- What a value holds. -/
def content : Value → Content
  | .scalar value => .scalar value
  | .list items => .list (contents items)
  | .table entries => .table fun key => contentUnder entries key

/-- What the items of a list hold. -/
def contents : List Value → List Content
  | [] => []
  | item :: items => item.content :: contents items

/-- What the entries of a table hold under a key. -/
def contentUnder : List (String × Value) → String → Option Content
  | [], _ => none
  | (name, value) :: entries, key =>
      if name = key then some value.content else contentUnder entries key

end

end Value

/-- What a table holds under a key. -/
def Table.contentAt (table : Table) (key : String) : Option Content :=
  (Keyed.get? key table).map Value.content

theorem Value.contentUnder_eq (table : Table) (key : String) :
    Value.contentUnder table key = table.contentAt key := by
  induction table with
  | nil => rw [contentUnder]; rfl
  | cons entry table ih =>
      obtain ⟨name, value⟩ := entry
      rw [contentUnder, Table.contentAt, Keyed.get?, ih]
      split <;> rfl

theorem Value.content_table (table : Table) :
    Value.content (.table table) = .table fun key => table.contentAt key := by
  rw [Value.content]
  simp only [Value.contentUnder_eq]

namespace Table

/-- A value that holds the same as a table is a table. -/
theorem exists_of_content_eq {value : Value} {table : Table}
    (h : value.content = Value.content (.table table)) :
    ∃ other : Table, value = .table other ∧ ∀ key, other.contentAt key = table.contentAt key := by
  rw [Value.content_table] at h
  cases value with
  | scalar value => rw [Value.content] at h; cases h
  | list items => rw [Value.content] at h; cases h
  | table other =>
      rw [Value.content_table] at h
      exact ⟨other, rfl, congrFun (Content.table.inj h)⟩

end Table

end Lineage
