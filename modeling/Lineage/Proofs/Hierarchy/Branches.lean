import Lineage.Tree
import Mathlib.Data.List.Basic

/-!
# Branches of a tree

The same entity may stand in several places of a tree, so a node is told apart by the way that
leads to it.  A branch is that way: the nodes from the root down to a node, both included.  The
branches of a tree come in the order of its walk, one for each node, which makes statements about
all places of a tree statements about a list.

## Main results

* `branches_eq`: the branches of a tree are those of its children behind the root, and the root.
* `filterMap_getLast?_branches`: the branches end in the nodes of the walk, one for each.
-/

namespace Lineage.Tree

/-- A way of a tree is the root alone or leads on into a child. -/
private theorem mem_cons_map_flatMap_iff {α β : Type} {root : β} {children : List α}
    {ways : α → List (List β)} {way : List β} :
    way ∈ [root] :: (children.flatMap ways).map (root :: ·) ↔
      way = [root] ∨ ∃ child ∈ children, ∃ rest ∈ ways child, way = root :: rest := by
  rw [List.mem_cons, List.mem_map]
  simp only [List.mem_flatMap]
  constructor
  · rintro (h | ⟨rest, ⟨child, hchild, hrest⟩, rfl⟩)
    · exact .inl h
    · exact .inr ⟨child, hchild, rest, hrest, rfl⟩
  · rintro (h | ⟨child, hchild, rest, hrest, rfl⟩)
    · exact .inl h
    · exact .inr ⟨rest, ⟨child, hchild, hrest⟩, rfl⟩

mutual

/-- The ways from the root to the nodes of the tree, in the order of the walk. -/
def branches : Tree → List (List Tree)
  | ⟨name, path, tags, children⟩ =>
      [⟨name, path, tags, children⟩] ::
        (branchesAll children).map (⟨name, path, tags, children⟩ :: ·)

/-- The branches of several trees, one tree after the other. -/
def branchesAll : List Tree → List (List Tree)
  | [] => []
  | tree :: trees => branches tree ++ branchesAll trees

end

theorem branchesAll_eq_flatMap (trees : List Tree) :
    branchesAll trees = trees.flatMap branches := by
  induction trees with
  | nil => simp [branchesAll]
  | cons tree trees ih => simp [branchesAll, ih]

theorem branches_eq (tree : Tree) :
    tree.branches = [tree] :: (tree.children.flatMap branches).map (tree :: ·) := by
  obtain ⟨name, path, tags, children⟩ := tree
  rw [branches, branchesAll_eq_flatMap]

/-- A branch starts at the root. -/
theorem head?_of_mem_branches {tree : Tree} {branch : List Tree} (h : branch ∈ tree.branches) :
    branch.head? = some tree := by
  rw [branches_eq, List.mem_cons, List.mem_map] at h
  obtain rfl | ⟨rest, -, rfl⟩ := h <;> rfl

theorem ne_nil_of_mem_branches {tree : Tree} {branch : List Tree} (h : branch ∈ tree.branches) :
    branch ≠ [] := by
  rintro rfl
  cases head?_of_mem_branches h

/-- A branch is the root alone or goes on with a branch of a child. -/
theorem mem_branches_iff {tree : Tree} {branch : List Tree} :
    branch ∈ tree.branches ↔
      branch = [tree] ∨
        ∃ child ∈ tree.children, ∃ rest ∈ child.branches, branch = tree :: rest := by
  rw [branches_eq, mem_cons_map_flatMap_iff]

/-- The node at the end of a branch further down is the end of the branch behind the root. -/
private theorem filterMap_getLast?_cons {tree : Tree} {ways : List (List Tree)}
    (h : ∀ way ∈ ways, way ≠ []) :
    (ways.map (tree :: ·)).filterMap List.getLast? = ways.filterMap List.getLast? := by
  rw [List.filterMap_map]
  apply List.filterMap_congr
  intro way hway
  obtain ⟨node, rest, rfl⟩ := List.exists_cons_of_ne_nil (h way hway)
  exact List.getLast?_cons_cons

mutual

/-- Every node of the walk is the end of one branch, in the same place. -/
theorem filterMap_getLast?_branches (tree : Tree) :
    tree.branches.filterMap List.getLast? = tree.walk := by
  obtain ⟨name, path, tags, children⟩ := tree
  have hne : ∀ way ∈ branchesAll children, way ≠ [] := by
    intro way hway
    rw [branchesAll_eq_flatMap, List.mem_flatMap] at hway
    obtain ⟨child, -, hway⟩ := hway
    exact ne_nil_of_mem_branches hway
  rw [branches, walk, List.filterMap_cons, filterMap_getLast?_cons hne,
    filterMap_getLast?_branchesAll children]
  rfl

theorem filterMap_getLast?_branchesAll (trees : List Tree) :
    (branchesAll trees).filterMap List.getLast? = walkAll trees := by
  match trees with
  | [] => simp [branchesAll, walkAll]
  | tree :: trees =>
      rw [branchesAll, walkAll, List.filterMap_append, filterMap_getLast?_branches tree,
        filterMap_getLast?_branchesAll trees]

end

/-- A node of the walk stands at the end of some branch. -/
theorem exists_branch_of_mem_walk {tree node : Tree} (h : node ∈ tree.walk) :
    ∃ branch ∈ tree.branches, branch.getLast? = some node := by
  rwa [← filterMap_getLast?_branches, List.mem_filterMap] at h

/-! ## The names on the branches -/

/-- The names on the branches of a tree, in the order of the walk. -/
def branchNames (tree : Tree) : List (List String) := tree.branches.map (·.map name)

theorem branchNames_eq (tree : Tree) :
    tree.branchNames =
      [tree.name] :: (tree.children.flatMap branchNames).map (tree.name :: ·) := by
  simp only [branchNames, branches_eq tree, List.map_cons, List.map_nil, List.map_map,
    List.map_flatMap, Function.comp_def]

theorem mem_branchNames_iff {tree : Tree} {names : List String} :
    names ∈ tree.branchNames ↔
      names = [tree.name] ∨
        ∃ child ∈ tree.children, ∃ rest ∈ child.branchNames, names = tree.name :: rest := by
  rw [branchNames_eq, mem_cons_map_flatMap_iff]

theorem head?_of_mem_branchNames {tree : Tree} {names : List String}
    (h : names ∈ tree.branchNames) : names.head? = some tree.name := by
  obtain ⟨branch, hbranch, rfl⟩ := List.mem_map.mp h
  rw [List.head?_map, head?_of_mem_branches hbranch]
  rfl

end Lineage.Tree
