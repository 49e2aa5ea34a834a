import Lineage.View.Markup
import Lineage.View.Row

/-!
# Fully expanded hierarchies

An outline holds a value and the outlines below it. Expanding every row of a hierarchy gives an
outline of rows; with the label of each row in console markup it becomes the outline that is
printed.

## Main results

* `outline_eq`: the outline below a row is that of the rows it expands to.
-/

namespace Lineage

/-- A value with the outlines below it. -/
structure Outline (α : Type) where
  value : α
  inner : List (Outline α)

namespace Outline

mutual

/-- The outline with every value replaced. -/
def map {α β : Type} (f : α → β) : Outline α → Outline β
  | ⟨value, inner⟩ => ⟨f value, mapAll f inner⟩

/-- Several outlines with every value replaced. -/
def mapAll {α β : Type} (f : α → β) : List (Outline α) → List (Outline β)
  | [] => []
  | outline :: outlines => map f outline :: mapAll f outlines

end

end Outline

/-- The rows of a node's tags, fully expanded. -/
def Tree.tagOutline (node : Tree) : List (Outline Row) :=
  if node.tags.isEmpty then []
  else [⟨.tagSection node, node.tags.map fun usage => ⟨.tagLeaf usage node, []⟩⟩]

mutual

/-- The row of a tree, fully expanded. -/
def Tree.outline : Tree → Outline Row
  | ⟨name, path, tags, children⟩ =>
      let node : Tree := ⟨name, path, tags, children⟩
      ⟨.entity node, node.tagOutline ++ outlineAll children⟩

/-- The rows of several trees, fully expanded. -/
def Tree.outlineAll : List Tree → List (Outline Row)
  | [] => []
  | tree :: trees => outline tree :: outlineAll trees

end

theorem Tree.outlineAll_eq_map (trees : List Tree) : outlineAll trees = trees.map outline := by
  induction trees with
  | nil => simp [outlineAll]
  | cons tree trees ih => simp [outlineAll, ih]

/-- The row itself, fully expanded. -/
def Row.outline : Row → Outline Row
  | .entity node => node.outline
  | .tagSection node => ⟨.tagSection node, node.tags.map fun usage => ⟨.tagLeaf usage node, []⟩⟩
  | .tagLeaf usage owner => ⟨.tagLeaf usage owner, []⟩

theorem Row.outline_eq (row : Row) : row.outline = ⟨row, row.children.map Row.outline⟩ := by
  cases row with
  | entity node =>
      obtain ⟨name, path, tags, children⟩ := node
      simp only [outline, Tree.outline, Tree.outlineAll_eq_map, Row.children, List.map_append,
        List.map_map, Tree.tagOutline]
      split <;> rfl
  | tagSection node => simp [outline, Row.children, Function.comp_def]
  | tagLeaf usage owner => simp [outline, Row.children]

/-- The mark before a row's label. -/
def Row.icon : Row → String
  | .entity _ => "[bold cyan]◆[/bold cyan]"
  | .tagSection _ => "[magenta]#[/magenta]"
  | .tagLeaf .. => "[green]<>[/green]"

/-- What a row shows after its label and description: the line of a tag, on demand an entity's
file. -/
def Row.detail (showPaths : Bool) : Row → String
  | .entity node =>
      if showPaths then "\n[dim]" ++ View.Markup.escape node.path.toString ++ "[/dim]" else ""
  | .tagSection _ => ""
  | .tagLeaf usage _ => "  [dim italic]" ++ View.Markup.escape usage.context ++ "[/dim italic]"

/-- The row in console markup. -/
def Row.markup (showPaths : Bool) (row : Row) : String :=
  let description :=
    if row.description.isEmpty then ""
    else " [dim]" ++ View.Markup.escape row.description ++ "[/dim]"
  row.icon ++ " " ++ View.Markup.escape row.label ++ description ++ row.detail showPaths

/-- The hierarchy as it is printed. -/
def Tree.render (showPaths : Bool) (tree : Tree) : Outline String :=
  tree.outline.map (Row.markup showPaths)

end Lineage
