import Lineage.View.Row

/-!
# The hierarchy on display

At most one hierarchy is on display; showing another replaces it.
-/

namespace Lineage

/-- The hierarchy on display, if there is one. -/
structure Display where
  root : Option Tree := none

/-- The display after another tree, or none, is shown on it. -/
def Display.refresh (_ : Display) (root : Option Tree) : Display := ⟨root⟩

/-- The rows at the top: one for the hierarchy on display. -/
def Display.rows (display : Display) : List Row := display.root.toList.map Row.entity

end Lineage
