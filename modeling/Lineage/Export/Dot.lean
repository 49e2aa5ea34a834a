import Lineage.Distinct
import Lineage.Tree

/-!
# Graphs in the DOT language

A hierarchy is exported as a directed graph. Every entity of the tree is one node of the graph,
however often it stands in the tree, and every pair of an entity and its child is one edge; both
come in the order of the walk. A node's identifier is the entity's name and path joined by `@`.
-/

namespace Lineage.Dot

/-- The identifier of a node in the graph. -/
def nodeId (node : Tree) : String := node.name ++ "@" ++ node.path.toString

/-- A text inside double quotes. -/
def escape (text : String) : String :=
  String.ofList (text.toList.flatMap fun c => if c = '"' then ['\\', '"'] else [c])

/-- The path shown in a label: as seen from the project, else the file name alone. -/
def displayPath (path : Path) (project : Option Path) : String :=
  match project.bind path.relativeTo? with
  | some path => path.toString
  | none => path.name

/-- The label of a node: name, path and, if there are any, the number of tag usages. -/
def label (node : Tree) (project : Option Path) : String :=
  let usages :=
    if node.tags.isEmpty then "" else "\\n" ++ node.tags.length.repr ++ " tag usage(s)"
  node.name ++ "\\n" ++ displayPath node.path project ++ usages

/-- The nodes of the graph: for each identifier the first node of the walk. -/
def nodes (root : Tree) : List Tree := firstsBy nodeId root.walk

/-- The edges of the graph, as pairs of identifiers. -/
def edges (root : Tree) : List (String × String) :=
  firstsBy id (root.walk.flatMap fun node =>
    node.children.map fun child => (nodeId node, nodeId child))

/-- The line that declares a node. -/
def nodeLine (project : Option Path) (node : Tree) : String :=
  "  \"" ++ escape (nodeId node) ++ "\" [label=\"" ++ escape (label node project) ++ "\"];"

/-- The line of an edge. -/
def edgeLine (edge : String × String) : String :=
  "  \"" ++ escape edge.1 ++ "\" -> \"" ++ escape edge.2 ++ "\";"

/-- The lines before the first node. -/
def header : List String :=
  ["digraph ClassHierarchy \x7b", "  rankdir=TB;", "  node [shape=box];"]

/-- The lines of the graph. -/
def lines (root : Tree) (project : Option Path) : List String :=
  header ++ (nodes root).map (nodeLine project) ++ (edges root).map edgeLine ++ ["\x7d"]

/-- The text of the graph. -/
def render (root : Tree) (project : Option Path) : String := "\n".intercalate (lines root project)

end Lineage.Dot
