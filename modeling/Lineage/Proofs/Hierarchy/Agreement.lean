import Lineage.Proofs.Hierarchy.Unfolding
import Lineage.Proofs.Scan.Evidence

/-!
# Places and tags of a hierarchy

The same entity may stand in many places of a hierarchy, and it is looked up and scanned at another
moment in each of them, with more texts remembered.  All the same every node agrees with a lookup of
its name and with a scan of its file at any later moment, faulty files included, and so the nodes
agree with each other: the tags of a node depend on nothing but its file.

## Main results

* `node_agrees`: a node of a hierarchy is in the file that declares its name, and has the tags of
  that file.
-/

namespace Lineage.Project

variable {project : Project} {memory later : Memory} {root : String} {tree node : Tree}

/-- A node of a hierarchy has the place and the tags that lookups of the start give for it. -/
theorem findings_of_mem_walk (htree : ((project.hierarchy root).run memory).1 = some tree)
    (hnode : node ∈ tree.walk) :
    (project.findings memory).place node.name = some node.path ∧
      (project.findings memory).tags node.entity = node.tags := by
  obtain ⟨branch, hbranch, hlast⟩ := Tree.exists_branch_of_mem_walk hnode
  refine ⟨(node_of_hierarchy htree hbranch hlast).1, ?_⟩
  obtain ⟨path, hplace, rfl⟩ := exists_place_of_hierarchy htree
  obtain ⟨depth, ancestors, entity, hend, -, -, -⟩ :=
    Findings.exists_of_mem_branches (project.mem_nominableNames_of_mem_nominated memory)
      (.singleton hplace) (Findings.room_lt_length_succ _ _) hbranch
  rw [hlast, Option.some.injEq] at hend
  rw [hend, Findings.tags_tree, Findings.entity_tree]

/-- The tags of a node are those collected from its file at any moment. -/
theorem tags_of_mem_walk (htree : ((project.hierarchy root).run memory).1 = some tree)
    (hnode : node ∈ tree.walk) (hview : project.view later = project.view memory) :
    project.store.isFile node.path = .ok true ∧
      ((project.collectTags node.path).run later).1.tags = node.tags := by
  obtain ⟨hplace, htags⟩ := findings_of_mem_walk htree hnode
  have hfile : project.store.isFile node.path = .ok true := isFile_of_locate hplace
  refine ⟨hfile, ?_⟩
  rw [(project.steady_collectTags node.path).answer_eq _ _ hview, ← htags]
  exact (answer_entityTags hfile node.name memory).symm

/-- Every node of a hierarchy is consistent with its name.  At any moment at which the same texts
are in sight, its name is located in its file, and a scan of its file for an entity of any name
gives its tags and is no error; so any two nodes that share a file have the same tags, in whatever
hierarchies they stand and whatever they are named. -/
theorem node_agrees (htree : ((project.hierarchy root).run memory).1 = some tree)
    (hnode : node ∈ tree.walk) (hview : project.view later = project.view memory) :
    ((project.locate node.name).run later).1 = some node.path ∧
      (∀ name, ((project.tagsAt name node.path).run later).1 = .ok node.tags) ∧
      ∀ other otherTree otherRoot, ((project.hierarchy otherRoot).run later).1 = some otherTree →
        other ∈ otherTree.walk → other.path = node.path → other.tags = node.tags := by
  obtain ⟨hfile, htags⟩ := tags_of_mem_walk htree hnode hview
  refine ⟨?_, ?_, ?_⟩
  · rw [(project.steady_locate node.name).answer_eq _ _ hview]
    exact (findings_of_mem_walk htree hnode).1
  · intro name
    rw [answer_tagsAt hfile, htags]
  · intro other otherTree otherRoot hother hmem hpath
    rw [← (tags_of_mem_walk hother hmem rfl).2, hpath, htags]

/-- A project of one file that declares two classes and imports a component. -/
def importing : Project where
  store :=
    { entries := [(["p"], .directory), (["p", "a.js"],
        .file "import X from 'c/x'\nclass A extends B\nclass B extends A\n".toUTF8.toList)] }
  root := ⟨.root, ["p"]⟩
  settings := {}

/-- The two classes share the file, so the node of `B` has the tags of the root `A`, and a scan
after the build finds the same. -/
theorem node_agrees_importing :
    ∃ tree ∈ ((importing.hierarchy "A").run {}).1, ∃ node ∈ tree.children,
      node.tags = tree.tags ∧ node.tags.map TagUsage.tag = ["<c-x>"] ∧
        ((importing.locate "B").run ((importing.hierarchy "A").run {}).2).1 = some node.path ∧
        ((importing.tagsAt "B" node.path).run ((importing.hierarchy "A").run {}).2).1 =
          .ok node.tags := by
  have hsome : ((importing.hierarchy "A").run {}).1.isSome = true := by decide +kernel
  have hshape : ((importing.hierarchy "A").run {}).1.map
      (fun tree => (tree.path, tree.children.map fun node =>
        (node.name, node.path, node.tags.map TagUsage.tag))) =
        some (⟨.root, ["p", "a.js"]⟩, [("B", ⟨.root, ["p", "a.js"]⟩, ["<c-x>"])]) := by
    decide +kernel
  obtain ⟨tree, htree⟩ := Option.isSome_iff_exists.mp hsome
  rw [htree, Option.map_some, Option.some.injEq, Prod.mk.injEq, List.map_eq_singleton_iff]
    at hshape
  obtain ⟨hrootPath, node, hchildren, hnode⟩ := hshape
  obtain ⟨hname, hpath, htags⟩ : node.name = "B" ∧ node.path = ⟨.root, ["p", "a.js"]⟩ ∧
      node.tags.map TagUsage.tag = ["<c-x>"] := by simpa using hnode
  have hchild : node ∈ tree.children := by rw [hchildren]; exact List.mem_singleton_self node
  have hroot : tree ∈ tree.walk := by rw [Tree.walk_eq_cons]; exact List.mem_cons_self
  have hmem : node ∈ tree.walk := by
    rw [Tree.walk_eq_cons, List.mem_cons, List.mem_flatMap]
    exact .inr ⟨node, hchild, by rw [Tree.walk_eq_cons]; exact List.mem_cons_self⟩
  obtain ⟨hplace, hscan, -⟩ := node_agrees htree hmem (view_run_hierarchy "A")
  obtain ⟨-, -, hshared⟩ := node_agrees htree hroot rfl
  rw [hname] at hplace
  exact ⟨tree, htree, node, hchild, hshared node tree "A" htree hmem (hpath.trans hrootPath.symm),
    htags, hplace, hscan "B"⟩

end Lineage.Project
