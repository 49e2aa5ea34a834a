import Lineage.Notice
import Lineage.Text.ControlSequence
import Lineage.View.Outline

/-!
# What a command shows

A command writes lines of plain text for its results and for its complaints. A name in a line may
hold control sequences of a terminal, which are written only where a terminal follows them.
Hierarchies and tables are kept as data; how they are laid out on a screen is another matter.
Notices are shown from a level on that the user chooses.
-/

namespace Lineage.Cli

/-- Texts in rows under headings. -/
structure Grid where
  title : String
  headings : List String
  rows : List (List String)
  deriving Repr, DecidableEq

/-- What is laid out on the screen. -/
inductive Picture where
  | tree (outline : Outline String)
  | grid (grid : Grid)

/-- What a command has shown. -/
structure Console where
  /-- The lines of its results. -/
  results : List String := []
  /-- The lines of its complaints. -/
  complaints : List String := []
  pictures : List Picture := []
  notices : Array Notice := #[]

namespace Console

/-- Lines as one text for a terminal. -/
def terminalText (lines : List String) : String := String.join (lines.map (· ++ "\n"))

/-- Lines as one text without control sequences. -/
def text (lines : List String) : String := terminalText (lines.map Text.withoutSequences)

/-- The console with those of the notices shown that have at least the given level. -/
def report (console : Console) (least : Level) (notices : Array Notice) : Console :=
  { console with
    notices := console.notices ++
      notices.filter fun notice => decide (least.rank ≤ notice.level.rank) }

end Console

end Lineage.Cli
