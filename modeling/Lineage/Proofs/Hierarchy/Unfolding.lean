import Lineage.Proofs.Hierarchy.Building

/-!
# What a hierarchy holds

A hierarchy unfolds the relation between a parent and the names that the code nominates for it, as
far as these are declared.  This module reads the tree of a build in terms of the lookups alone:
which ways there are from its root, where a name stands among its siblings, and how deep it goes.

Everything rests on `hierarchy_eq`, which replaces the build by the tree of the findings, and on the
description of the branches of that tree.

## Main results

* `hierarchy_unfolds`: the tree of a build is the unfolding of the relation over simple paths.
* `mem_of_inherits`: no class that names a node of the tree as its parent is lost.
* `hierarchy_ends`: the recursion ends, and the names that code can nominate bound the depth.
-/

namespace Lineage.Project

variable {project : Project} {memory : Memory} {root : String} {tree : Tree}

/-! ## Branches of a hierarchy -/

/-- The tree of a build is that of the findings, below the file that declares the root. -/
theorem exists_place_of_hierarchy (htree : ((project.hierarchy root).run memory).1 = some tree) :
    ∃ path, (project.findings memory).place root = some path ∧
      tree = (project.findings memory).tree ((project.nominableNames memory).length + 1) []
        ⟨root, path⟩ := by
  rw [hierarchy_eq, Findings.hierarchy, Option.map_eq_some_iff] at htree
  obtain ⟨path, hplace, rfl⟩ := htree
  exact ⟨path, hplace, rfl⟩

theorem mem_branchNames_hierarchy_iff {names : List String}
    (htree : ((project.hierarchy root).run memory).1 = some tree) :
    names ∈ tree.branchNames ↔
      names.head? = some root ∧ names.IsChain (project.findings memory).Descends ∧
        names.Nodup := by
  obtain ⟨path, hplace, rfl⟩ := exists_place_of_hierarchy htree
  rw [Findings.mem_branchNames_tree_iff (project.mem_nominableNames_of_mem_nominated memory)
    (.singleton hplace) (by simp) (Findings.room_lt_length_succ _ _)]
  simp

/-- A node at the end of a branch stands for the entity that its name stands for, and its children
are named by whatever is nominated for it, is declared and is not on the branch. -/
theorem node_of_hierarchy {branch : List Tree} {node : Tree}
    (htree : ((project.hierarchy root).run memory).1 = some tree)
    (hbranch : branch ∈ tree.branches) (hnode : branch.getLast? = some node) :
    (project.findings memory).place node.name = some node.path ∧
      node.children.map Tree.name =
        ((project.findings memory).nominated node.name).filter fun name =>
          ((project.findings memory).place name).isSome &&
            decide (name ∉ branch.map Tree.name) := by
  obtain ⟨path, hplace, rfl⟩ := exists_place_of_hierarchy htree
  have hnames := project.mem_nominableNames_of_mem_nominated memory
  have hplaced := Findings.Placed.singleton hplace
  have hroom := Findings.room_lt_length_succ (project.nominableNames memory) [⟨root, path⟩]
  constructor
  · obtain ⟨depth, ancestors, entity, hlast, hplaced', -, -⟩ :=
      Findings.exists_of_mem_branches hnames hplaced hroom hbranch
    rw [hnode, Option.some.injEq] at hlast
    rw [hlast, Findings.name_tree, Findings.path_tree]
    exact hplaced' entity List.mem_cons_self
  · rw [Findings.map_name_children_of_mem_branches hnames hplaced hroom hbranch hnode]
    simp

/-! ## The relation that a hierarchy unfolds -/

/-- The names that the code nominates for a parent, in the order of nomination. -/
def nominations (project : Project) (memory : Memory) (parent : String) : List String :=
  (((project.children ChildRule.all parent).run memory).1).map Entity.name

/-- The code nominates the child for the parent, and some file declares the child. -/
def HasChild (project : Project) (memory : Memory) (parent child : String) : Prop :=
  child ∈ project.nominations memory parent ∧
    ((project.locate child).run memory).1.isSome = true

/-- The tree is the unfolding of the relation over the simple paths from the root. -/
structure IsUnfolding (project : Project) (memory : Memory) (root : String) (tree : Tree) :
    Prop where
  /-- The ways from the root, by name, are the simple paths of the relation. -/
  way_iff : ∀ names, names ∈ tree.branchNames ↔
    names.head? = some root ∧ names.IsChain (project.HasChild memory) ∧ names.Nodup
  /-- No two nodes are reached by the same names. -/
  once : tree.branchNames.Nodup
  /-- Siblings stand in the order in which they are first nominated. -/
  order : ∀ node ∈ tree.walk, (node.children.map Tree.name).Pairwise fun left right =>
    (project.nominations memory node.name).idxOf left <
      (project.nominations memory node.name).idxOf right
  /-- Every node is in the file that declares its name. -/
  place : ∀ node ∈ tree.walk, ((project.locate node.name).run memory).1 = some node.path

theorem descends_iff_hasChild {parent child : String} :
    (project.findings memory).Descends parent child ↔ project.HasChild memory parent child :=
  and_congr_left fun _ => mem_firstsBy_id

theorem isUnfolding_of_hierarchy
    (htree : ((project.hierarchy root).run memory).1 = some tree) :
    project.IsUnfolding memory root tree where
  way_iff names := by
    have hrelation : (project.findings memory).Descends = project.HasChild memory := by
      funext parent child
      exact propext descends_iff_hasChild
    rw [mem_branchNames_hierarchy_iff htree, hrelation]
  once := by
    obtain ⟨path, hplace, rfl⟩ := exists_place_of_hierarchy htree
    exact Findings.nodup_branchNames_tree nodup_nominated (.singleton hplace)
  order node hnode := by
    obtain ⟨branch, hbranch, hlast⟩ := Tree.exists_branch_of_mem_walk hnode
    rw [(node_of_hierarchy htree hbranch hlast).2]
    exact (firstsBy_id_pairwise_idxOf _).filter _
  place node hnode := by
    obtain ⟨branch, hbranch, hlast⟩ := Tree.exists_branch_of_mem_walk hnode
    exact (node_of_hierarchy htree hbranch hlast).1

/-- A build unfolds the relation below a root that some file declares, and gives nothing for any
other. -/
theorem hierarchy_unfolds (project : Project) (memory : Memory) (root : String) :
    match ((project.locate root).run memory).1 with
    | none => ((project.hierarchy root).run memory).1 = none
    | some _ => ∃ tree, ((project.hierarchy root).run memory).1 = some tree ∧
        project.IsUnfolding memory root tree := by
  have hanswer : ((project.hierarchy root).run memory).1 =
      ((project.locate root).run memory).1.map fun path =>
        (project.findings memory).tree ((project.nominableNames memory).length + 1) []
          ⟨root, path⟩ := hierarchy_eq root
  cases hplace : ((project.locate root).run memory).1 with
  | none =>
      rw [hanswer, hplace]
      rfl
  | some path =>
      rw [hplace, Option.map_some] at hanswer
      exact ⟨_, hanswer, isUnfolding_of_hierarchy hanswer⟩

/-! ## Subclasses -/

/-- What a file of code nominates by inheritance is nominated for the parent in a build. -/
theorem mem_nominated_of_inherits {file : SourceFile} {text parent name : String}
    (hparent : parent.isEmpty = false)
    (hfile : file ∈ project.files project.settings.logicExtensions none)
    (htext : project.view memory file.path = .ok text)
    (hname : name ∈ ChildRule.inheritance.nominate file.path text parent) :
    name ∈ (project.findings memory).nominated parent := by
  have hentity : (⟨name, file.path⟩ : Entity) ∈
      nominees ChildRule.all parent file.path text := by
    rw [nominees, List.mem_flatMap]
    exact ⟨.inheritance, by decide, List.mem_map_of_mem hname⟩
  have hchild : (⟨name, file.path⟩ : Entity) ∈
      ((project.children ChildRule.all parent).run memory).1 :=
    mem_children_iff.mpr ⟨hparent, file, text, hfile, htext, hentity⟩
  exact mem_firstsBy_id.mpr (List.mem_map_of_mem hchild)

/-- No subclass is lost: a class that some readable file of code declares with the name of a node
as its parent is located, and it is a child of the node unless it is on the branch already. -/
theorem mem_of_inherits {branch : List Tree} {node : Tree} {file : SourceFile}
    {text name : String}
    (htree : ((project.hierarchy root).run memory).1 = some tree)
    (hbranch : branch ∈ tree.branches) (hnode : branch.getLast? = some node)
    (hfile : file ∈ project.files project.settings.logicExtensions none)
    (hkind : file.kind = .logic) (htext : project.view memory file.path = .ok text)
    (hname : name ∈ Lexical.Extension.children text node.name ∨
      file.path.suffix = ".py" ∧ name ∈ Lexical.BaseList.children text node.name) :
    ((project.locate name).run memory).1.isSome = true ∧
      (name ∈ node.children.map Tree.name ∨ name ∈ branch.map Tree.name) := by
  obtain ⟨hplace, hchildren⟩ := node_of_hierarchy htree hbranch hnode
  have hinherits : name ∈ ChildRule.inheritance.nominate file.path text node.name := by
    rw [ChildRule.nominate, List.mem_append]
    rcases hname with hname | ⟨hsuffix, hname⟩
    · exact .inl hname
    · right
      rw [ChildRule.baseListSuffix, if_pos hsuffix]
      exact hname
  have hdeclared : Lexical.Declaration.DeclaredIn text name := by
    rcases hname with hname | ⟨-, hname⟩
    · exact Lexical.Extension.declaredIn_of_mem_children hname
    · exact Lexical.BaseList.declaredIn_of_mem_children hname
  have hlocated := isSome_locate_of_declaredIn hfile hkind htext hdeclared
  have hnonempty : node.name.isEmpty = false := not_isEmpty_of_locate hplace
  have hnominated := mem_nominated_of_inherits hnonempty hfile htext hinherits
  refine ⟨hlocated, ?_⟩
  by_cases hon : name ∈ branch.map Tree.name
  · exact .inr hon
  · left
    rw [hchildren, List.mem_filter, Bool.and_eq_true]
    exact ⟨hnominated, hlocated, decide_eq_true hon⟩

/-- Two classes that name each other as their parent. -/
def circleText : String := "class A(B):\n pass\nclass B extends A:\n pass\n"

/-- A project of one file, which declares the two. -/
def circle : Project where
  store :=
    { entries := [(["p"], .directory), (["p", "a.py"], .file circleText.toUTF8.toList)] }
  root := ⟨.root, ["p"]⟩
  settings := {}

theorem mem_of_inherits_circle :
    ∃ tree, ((circle.hierarchy "A").run {}).1 = some tree ∧
      ("B" ∈ tree.children.map Tree.name ∨ "B" ∈ [tree].map Tree.name) := by
  have hsome : ((circle.hierarchy "A").run {}).1.isSome = true := by decide +kernel
  have hname : ((circle.hierarchy "A").run {}).1.map Tree.name = some "A" := by decide +kernel
  obtain ⟨tree, htree⟩ := Option.isSome_iff_exists.mp hsome
  rw [htree, Option.map_some, Option.some.injEq] at hname
  refine ⟨tree, htree, ?_⟩
  have hbranch : [tree] ∈ tree.branches := Tree.mem_branches_iff.mpr (.inl rfl)
  have hfile : (⟨⟨.root, ["p", "a.py"]⟩, .logic⟩ : SourceFile) ∈
      circle.files circle.settings.logicExtensions none := by decide +kernel
  have htext : circle.view {} ⟨.root, ["p", "a.py"]⟩ = .ok circleText := by decide +kernel
  have hinherits : "B" ∈ Lexical.Extension.children circleText tree.name := by
    rw [hname]
    decide +kernel
  exact (mem_of_inherits htree hbranch rfl hfile rfl htext (.inl hinherits)).2

/-! ## Depth -/

/-- A branch has different names, and all but the first are among those that code can nominate. -/
theorem length_le_of_mem_branches {branch : List Tree}
    (htree : ((project.hierarchy root).run memory).1 = some tree)
    (hbranch : branch ∈ tree.branches) :
    branch.length ≤ 1 + (project.Nominable memory).ncard := by
  have hway : branch.map Tree.name ∈ tree.branchNames := List.mem_map_of_mem hbranch
  obtain ⟨hhead, hchain, hnodup⟩ := (mem_branchNames_hierarchy_iff htree).mp hway
  obtain ⟨rest, hrest⟩ := List.head?_eq_some_iff.mp hhead
  rw [hrest] at hchain hnodup
  have hlength : branch.length = rest.length + 1 := by
    rw [← List.length_map (f := Tree.name), hrest, List.length_cons]
  have hnominable : ∀ name ∈ rest, name ∈ project.Nominable memory := by
    intro name hname
    obtain ⟨parent, hnominated⟩ := Findings.exists_nominated_of_isChain hchain name hname
    exact nominable_of_mem_nominated hnominated
  have hcard := length_le_ncard_nominable (List.nodup_cons.mp hnodup).2 hnominable
  omega

/-- The recursion of a build ends without any count, with the same answer, the same reads and the
same notices, and no branch of the tree is longer than the root and one node for each name that
code can nominate, however the files refer to each other. -/
theorem hierarchy_ends (project : Project) (memory : Memory) (root : String) :
    (∃ lookups, project.remembering.Builds root ({}, memory)
        ((project.hierarchy root).run memory).1
        (lookups, ((project.hierarchy root).run memory).2)) ∧
      ∀ tree ∈ ((project.hierarchy root).run memory).1, ∀ branch ∈ tree.branches,
        branch.length ≤ 1 + (project.Nominable memory).ncard := by
  refine ⟨builds_remembering root, ?_⟩
  intro tree htree branch hbranch
  exact length_le_of_mem_branches htree hbranch

end Lineage.Project
