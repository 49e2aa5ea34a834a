import Lineage.Hierarchy

/-!
# The root for an open file

A hierarchy can be asked for with nothing but a file open in an editor, and perhaps some text
selected in it. The selected text, if there is any, is the only name tried. Otherwise code offers
the first class it declares and then the file's own name, and markup the file's own name. The first
name tried that some file declares becomes the root.
-/

namespace Lineage.Project

/-- The names to try for a file in which nothing is selected. -/
def namesFor (project : Project) (file : Path) : Scan (Except ReadFailure (List String)) := do
  match project.settings.kindOf file with
  | none => return .ok []
  | some .markup => return .ok [file.stem]
  | some .logic =>
      match ← project.read file with
      | .error failure => return .error failure
      | .ok text =>
          let first := (Lexical.Declaration.names text).take 1
          return .ok (firstsBy id (first ++ [file.stem]))

/-- The names to try for a file and a selection. -/
def rootCandidates (project : Project) (file : Path) (selection : Option String) :
    Scan (Except ReadFailure (List String)) :=
  match selection.map Text.stripped with
  | some selected => if selected.isEmpty then project.namesFor file else return .ok [selected]
  | none => project.namesFor file

/-- The hierarchy below the first of the names that some file declares. -/
def firstHierarchy (project : Project) : List String → Scan (Option Tree)
  | [] => return none
  | name :: names => do
      match ← project.hierarchy name with
      | some tree => return some tree
      | none =>
          note (.unresolved name)
          project.firstHierarchy names

/-- The names tried for a file and the hierarchy found. -/
def hierarchyFor (project : Project) (file : Path) (selection : Option String) :
    Scan (Except ReadFailure (List String × Option Tree)) := do
  match ← project.rootCandidates file selection with
  | .error failure => return .error failure
  | .ok names =>
      let tree ← project.firstHierarchy names
      return .ok (names, tree)

end Lineage.Project
