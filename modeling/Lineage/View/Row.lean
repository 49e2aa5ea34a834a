import Lineage.Tree

/-!
# Rows of a displayed hierarchy

A hierarchy is displayed as rows that can be expanded. An entity expands to the section of its
tags, if it has any, followed by its children; the section expands to one leaf for each tag. A row
that can be opened in an editor has a target: a file, or a line of one.

## Main results

* `expandable_iff`: a row is expandable exactly if expanding it shows something.
-/

namespace Lineage

/-- A place to go to: a file, or a line of it. -/
structure Target where
  path : Path
  line : Option Int := none
  deriving Repr, DecidableEq

/-- The editor command that goes there. -/
def Target.command (target : Target) : String :=
  match target.line with
  | none => "open_file"
  | some _ => "open_file_at_line"

/-- The place as `path` or `path:line`. -/
def Target.toString (target : Target) : String :=
  match target.line with
  | none => target.path.toString
  | some line => target.path.toString ++ ":" ++ line.repr

/-- A row of a displayed hierarchy. -/
inductive Row where
  | entity (node : Tree)
  | tagSection (node : Tree)
  | tagLeaf (usage : TagUsage) (owner : Tree)

namespace Row

/-- The heading of a tag section. -/
def tagSectionLabel : String := "Custom Tags"

/-- The main text of a row. -/
def label : Row → String
  | entity node => node.name
  | tagSection _ => tagSectionLabel
  | tagLeaf usage _ => usage.name

/-- There is something to show below the row. -/
def expandable : Row → Bool
  | entity node => !node.children.isEmpty || !node.tags.isEmpty
  | tagSection _ => true
  | tagLeaf .. => false

/-- The secondary text: the directory of an entity's file, the line of a tag. -/
def description : Row → String
  | entity node => node.path.parent.name
  | tagSection _ => ""
  | tagLeaf usage _ => "Line " ++ usage.line.repr

/-- The text shown on demand: an entity's file, the line that a tag stands on. -/
def tooltip : Row → String
  | entity node => node.path.toString
  | tagSection _ => ""
  | tagLeaf usage _ => usage.context

/-- The place that the row leads to. -/
def target? : Row → Option Target
  | entity node => some ⟨node.path, none⟩
  | tagSection _ => none
  | tagLeaf usage owner => some ⟨usage.file.getD owner.path, some usage.line⟩

/-- The rows shown when the row is expanded. -/
def children : Row → List Row
  | entity node =>
      (if node.tags.isEmpty then [] else [tagSection node]) ++ node.children.map entity
  | tagSection node => node.tags.map fun usage => tagLeaf usage node
  | tagLeaf .. => []

/-- A row that stands in a displayed hierarchy: a tag section belongs to an entity with tags. -/
def Shown : Row → Prop
  | tagSection node => node.tags ≠ []
  | _ => True

theorem expandable_iff {row : Row} (shown : row.Shown) :
    row.expandable = true ↔ row.children ≠ [] := by
  cases row with
  | entity node =>
      by_cases h : node.tags = [] <;> simp [expandable, children, h]
  | tagSection node => simpa [expandable, children, Shown] using shown
  | tagLeaf usage owner => simp [expandable, children]

end Row

end Lineage
