import Lineage.Cli.Console

/-!
# Plain layout

How hierarchies and tables are laid out on a screen without styles. A hierarchy is drawn with a
branch before each row and a stem beside what lies below it; a table has a column for each heading,
as wide as its widest text.
-/

namespace Lineage.Cli

/-- Lines with a lead before the first of them and another before the rest. -/
def indent (first others : String) : List String → List String
  | [] => []
  | line :: lines => (first ++ line) :: lines.map (others ++ ·)

/-- The lines of a text. -/
def textLines (text : String) : List String := (Text.lines text.toList).map String.ofList

mutual

/-- The lines of an outline. -/
def drawOutline : Outline String → List String
  | ⟨label, inner⟩ =>
      let lines := textLines (View.Markup.plain label)
      let stem := if inner.isEmpty then "" else "│   "
      indent "" stem lines ++ drawBranches inner

/-- The lines of outlines that hang on one stem. -/
def drawBranches : List (Outline String) → List String
  | [] => []
  | outline :: outlines =>
      let lines := drawOutline outline
      let (branch, stem) := if outlines.isEmpty then ("└── ", "    ") else ("├── ", "│   ")
      indent branch stem lines ++ drawBranches outlines

end

/-- The text with blanks after it, up to a width. -/
def padded (width : Nat) (text : String) : String :=
  text ++ String.ofList (List.replicate (width - text.length) ' ')

/-- The widths of the columns of a table. -/
def widths : List (List String) → List Nat
  | [] => []
  | row :: rows =>
      let below := widths rows
      let here := row.map String.length
      List.zipWith max here below ++ here.drop below.length ++ below.drop here.length

/-- The lines of a table. -/
def Grid.draw (grid : Grid) : List String :=
  let columns := widths (grid.headings :: grid.rows)
  let line (row : List String) : String := "  ".intercalate (List.zipWith padded columns row)
  let rule := columns.map fun width => String.ofList (List.replicate width '─')
  grid.title :: line grid.headings :: line rule :: grid.rows.map line

/-- The lines of a picture. -/
def Picture.draw : Picture → List String
  | .tree outline => drawOutline outline
  | .grid table => table.draw

end Lineage.Cli
