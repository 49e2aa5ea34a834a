import Lineage.Usage

/-!
# Hierarchies

A tree holds, for an entity at its root, the file that declares it, the tags it uses and the trees
of its children. The same entity may stand in several places of a tree. `walk` visits the nodes in
preorder; everything that lists, searches or exports a tree follows that order.

## Main results

* `walk_eq_cons`: the walk starts at the root, so it is never empty.
* `mem_walk_of_mem_children`: it comes to the children of every node that it comes to.
* `find?_eq_find?_walk`: the search finds the first node of the walk with the name.
-/

namespace Lineage

/-- A named class or component and the file that declares it. -/
structure Entity where
  name : String
  path : Path
  deriving Repr, DecidableEq

/-- A node of a hierarchy with everything below it. -/
structure Tree where
  name : String
  path : Path
  tags : List TagUsage
  children : List Tree
  deriving Repr

namespace Tree

/-- What a node stands for. -/
def entity (tree : Tree) : Entity := ⟨tree.name, tree.path⟩

mutual

/-- The nodes of a tree: the root, then those of each child in turn. -/
def walk : Tree → List Tree
  | ⟨name, path, tags, children⟩ => ⟨name, path, tags, children⟩ :: walkAll children

/-- The nodes of several trees, one tree after the other. -/
def walkAll : List Tree → List Tree
  | [] => []
  | tree :: trees => walk tree ++ walkAll trees

end

theorem walkAll_eq_flatMap (trees : List Tree) : walkAll trees = trees.flatMap walk := by
  induction trees with
  | nil => simp [walkAll]
  | cons tree trees ih => simp [walkAll, ih]

theorem walk_eq_cons (tree : Tree) : tree.walk = tree :: tree.children.flatMap walk := by
  obtain ⟨name, path, tags, children⟩ := tree
  rw [walk, walkAll_eq_flatMap]

theorem mem_walk_self (tree : Tree) : tree ∈ tree.walk := by
  rw [walk_eq_cons]
  exact List.mem_cons_self

mutual

/-- The walk comes to the children of every node that it comes to. -/
theorem mem_walk_of_mem_children (tree : Tree) {node child : Tree} (hnode : node ∈ tree.walk)
    (hchild : child ∈ node.children) : child ∈ tree.walk := by
  obtain ⟨name, path, tags, children⟩ := tree
  rw [walk, List.mem_cons] at hnode ⊢
  right
  rcases hnode with rfl | hnode
  · rw [walkAll_eq_flatMap, List.mem_flatMap]
    exact ⟨child, hchild, child.mem_walk_self⟩
  · exact mem_walkAll_of_mem_children children hnode hchild

theorem mem_walkAll_of_mem_children (trees : List Tree) {node child : Tree}
    (hnode : node ∈ walkAll trees) (hchild : child ∈ node.children) : child ∈ walkAll trees := by
  match trees with
  | [] => cases hnode
  | tree :: trees =>
      rw [walkAll, List.mem_append] at hnode ⊢
      rcases hnode with hnode | hnode
      · exact .inl (mem_walk_of_mem_children tree hnode hchild)
      · exact .inr (mem_walkAll_of_mem_children trees hnode hchild)

end

mutual

/-- The first node with the name, in the order of the walk. -/
def find? (name : String) : Tree → Option Tree
  | ⟨n, path, tags, children⟩ =>
      if n = name then some ⟨n, path, tags, children⟩ else findAny? name children

/-- The first node with the name in several trees. -/
def findAny? (name : String) : List Tree → Option Tree
  | [] => none
  | tree :: trees =>
      match find? name tree with
      | some found => some found
      | none => findAny? name trees

end

mutual

theorem find?_eq_find?_walk (name : String) (tree : Tree) :
    find? name tree = tree.walk.find? (·.name = name) := by
  obtain ⟨n, path, tags, children⟩ := tree
  rw [find?, walk, List.find?_cons]
  by_cases h : n = name
  · simp [h]
  · simp [h, findAny?_eq_find?_walkAll name children]

theorem findAny?_eq_find?_walkAll (name : String) (trees : List Tree) :
    findAny? name trees = (walkAll trees).find? (·.name = name) := by
  match trees with
  | [] => simp [findAny?, walkAll]
  | tree :: trees =>
      rw [findAny?, walkAll, List.find?_append, find?_eq_find?_walk name tree,
        findAny?_eq_find?_walkAll name trees]
      cases List.find? (fun node => decide (node.name = name)) tree.walk <;> simp

end

end Tree

end Lineage
