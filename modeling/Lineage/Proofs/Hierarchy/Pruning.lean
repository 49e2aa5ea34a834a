import Lineage.Proofs.Hierarchy.Unfolding

/-!
# Hierarchies within a hierarchy

A node of a hierarchy stands for an entity that a hierarchy of its own can be built for.  The two
differ only by the ancestors that the node has in the larger tree: what is an ancestor there is left
out below the node, with everything below it, and in the hierarchy built from scratch it is not.

The recursion does not see the difference until a child is an ancestor, so the two unfoldings are
compared level by level (`Findings.tree_append`).  They count down from different depths; neither
count is used up, so it does not matter (`Findings.tree_congr_depth`).

## Main results

* `subtree_eq_without`: the subtree at a node is the hierarchy of its name, without the entities
  above the node.
-/

namespace Lineage

namespace Tree

mutual

/-- The tree without the descendants that are among the entities, and without what is below these.
The root stays, whatever it is. -/
def without (entities : List Entity) : Tree → Tree
  | ⟨name, path, tags, children⟩ => ⟨name, path, tags, withoutAll entities children⟩

/-- Those of the trees whose roots are not among the entities, each without the descendants that
are. -/
def withoutAll (entities : List Entity) : List Tree → List Tree
  | [] => []
  | tree :: trees =>
      if tree.entity ∈ entities then withoutAll entities trees
      else without entities tree :: withoutAll entities trees

end

theorem withoutAll_eq_map_filter (entities : List Entity) (trees : List Tree) :
    withoutAll entities trees =
      (trees.filter fun tree => tree.entity ∉ entities).map (without entities) := by
  induction trees with
  | nil => simp [withoutAll]
  | cons tree trees ih =>
      rw [withoutAll, ih]
      by_cases hmem : tree.entity ∈ entities <;> simp [hmem]

/-- The entities above the end of a branch, the nearest first. -/
def entitiesAbove (branch : List Tree) : List Entity := (branch.dropLast.map entity).reverse

/-- The end of a branch and what is above it are the entities of the branch, the last first. -/
theorem cons_entitiesAbove {branch : List Tree} {node : Tree}
    (hnode : branch.getLast? = some node) :
    node.entity :: entitiesAbove branch = (branch.map entity).reverse := by
  obtain ⟨above, rfl⟩ := List.getLast?_eq_some_iff.mp hnode
  rw [entitiesAbove, List.dropLast_concat, List.map_append, List.reverse_append]
  rfl

end Tree

namespace Findings

variable {findings : Findings}

/-! ## More ancestors -/

/-- With further ancestors a name stands for the same entity, unless that is one of them. -/
theorem heir?_append (lineage above : List Entity) (name : String) :
    findings.heir? (lineage ++ above) name =
      (findings.heir? lineage name).filter fun heir => heir ∉ above := by
  rw [heir?, heir?]
  cases findings.place name with
  | none => rfl
  | some path =>
      by_cases hon : (⟨name, path⟩ : Entity) ∈ lineage
      · simp [hon]
      · by_cases habove : (⟨name, path⟩ : Entity) ∈ above <;>
          simp [hon, habove, Option.filter]

theorem heirs_append (lineage above : List Entity) (parent : String) :
    findings.heirs (lineage ++ above) parent =
      (findings.heirs lineage parent).filter fun heir => heir ∉ above := by
  rw [heirs, heirs, List.filter_filterMap]
  exact List.filterMap_congr fun name _ => heir?_append lineage above name

/-- Further ancestors take away what they are below the entity, and nothing else. -/
theorem tree_append (depth : Nat) (ancestors above : List Entity) (entity : Entity) :
    findings.tree depth (ancestors ++ above) entity =
      (findings.tree depth ancestors entity).without above := by
  induction depth generalizing ancestors entity with
  | zero => simp [tree, Tree.without, Tree.withoutAll]
  | succ depth ih =>
      have hheirs : findings.heirs (entity :: (ancestors ++ above)) entity.name =
          (findings.heirs (entity :: ancestors) entity.name).filter fun heir => heir ∉ above :=
        heirs_append (entity :: ancestors) above entity.name
      have hbelow : findings.tree depth (entity :: (ancestors ++ above)) =
          Tree.without above ∘ findings.tree depth (entity :: ancestors) := by
        funext heir
        exact ih (entity :: ancestors) heir
      rw [tree, tree, Tree.without, Tree.withoutAll_eq_map_filter, List.filter_map, List.map_map,
        hheirs, hbelow]
      -- A tree is kept or not by the entity at its root, which is the heir that it grows from.
      simp only [Function.comp_def, entity_tree]

/-! ## Different depths -/

/-- A depth that the room on the way does not use up makes no difference. -/
theorem tree_congr_depth {names : List String}
    (hnames : ∀ parent, ∀ name ∈ findings.nominated parent, name ∈ names)
    {depth other : Nat} {ancestors : List Entity} {entity : Entity}
    (hplaced : findings.Placed (entity :: ancestors))
    (hdepth : room names (entity :: ancestors) < depth)
    (hother : room names (entity :: ancestors) < other) :
    findings.tree depth ancestors entity = findings.tree other ancestors entity := by
  induction depth generalizing other ancestors entity with
  | zero => exact absurd hdepth (Nat.not_lt_zero _)
  | succ depth ih =>
      cases other with
      | zero => exact absurd hother (Nat.not_lt_zero _)
      | succ other =>
          have hheirs : ∀ heir ∈ findings.heirs (entity :: ancestors) entity.name,
              findings.tree depth (entity :: ancestors) heir =
                findings.tree other (entity :: ancestors) heir := by
            intro heir hheir
            have hless := room_heir_lt hplaced hnames hheir
            exact ih (hplaced.cons_heir hheir) (by omega) (by omega)
          rw [tree, tree, List.map_congr_left hheirs]

/-! ## The end of a branch -/

/-- The tree at the end of a branch is the unfolding from scratch, to any depth that is not used up,
without the entities above it. -/
theorem eq_without_of_mem_branches {names : List String}
    (hnames : ∀ parent, ∀ name ∈ findings.nominated parent, name ∈ names)
    {depth : Nat} {entity : Entity} {branch : List Tree} {node : Tree}
    (hplaced : findings.Placed [entity]) (hroom : room names [entity] < depth)
    (hbranch : branch ∈ (findings.tree depth [] entity).branches)
    (hnode : branch.getLast? = some node) :
    node = (findings.tree (names.length + 1) [] node.entity).without
      (Tree.entitiesAbove branch) := by
  obtain ⟨depth', ancestors, last, hlast, hplaced', hroom', hline⟩ :=
    exists_of_mem_branches hnames hplaced hroom hbranch
  rw [hnode, Option.some.injEq] at hlast
  have hentity : node.entity = last := by rw [hlast, entity_tree]
  rw [List.append_nil, ← Tree.cons_entitiesAbove hnode, hentity] at hline
  obtain ⟨-, rfl⟩ := List.cons.inj hline
  calc node = findings.tree depth' (Tree.entitiesAbove branch) last := hlast
    _ = findings.tree (names.length + 1) (Tree.entitiesAbove branch) last :=
        tree_congr_depth hnames hplaced' hroom' (room_lt_length_succ _ _)
    _ = (findings.tree (names.length + 1) [] last).without (Tree.entitiesAbove branch) :=
        tree_append _ [] _ last
    _ = _ := by rw [hentity]

end Findings

/-! ## Subtrees of a hierarchy -/

namespace Project

variable {project : Project} {memory : Memory} {root : String} {tree : Tree}

/-- The subtree at a node of a hierarchy is the hierarchy that is built for the node's name from
scratch, as long as the same texts are in sight, without the entities above the node: context only
prunes. -/
theorem subtree_eq_without {later : Memory} {branch : List Tree} {node : Tree}
    (htree : ((project.hierarchy root).run memory).1 = some tree)
    (hbranch : branch ∈ tree.branches) (hnode : branch.getLast? = some node)
    (hview : project.view later = project.view memory) :
    ∃ whole, ((project.hierarchy node.name).run later).1 = some whole ∧
      node = whole.without (Tree.entitiesAbove branch) := by
  have hplace : (project.findings memory).place node.name = some node.path :=
    (node_of_hierarchy htree hbranch hnode).1
  have hwhole : ((project.hierarchy node.name).run later).1 =
      some ((project.findings memory).tree ((project.nominableNames memory).length + 1) []
        node.entity) := by
    rw [(steady_hierarchy node.name).answer_eq _ _ hview, hierarchy_eq, Findings.hierarchy, hplace]
    rfl
  refine ⟨_, hwhole, ?_⟩
  obtain ⟨path, hrootPlace, rfl⟩ := exists_place_of_hierarchy htree
  exact Findings.eq_without_of_mem_branches (project.mem_nominableNames_of_mem_nominated memory)
    (.singleton hrootPlace) (Findings.room_lt_length_succ _ _) hbranch hnode

/-- Below `A` there is nothing left of the hierarchy of `B` but its root: its child is `A` again. -/
theorem subtree_eq_without_circle :
    ∃ tree ∈ ((circle.hierarchy "A").run {}).1, ∃ node ∈ tree.children,
      ∃ whole ∈ ((circle.hierarchy "B").run ((circle.hierarchy "A").run {}).2).1,
        node = whole.without [tree.entity] ∧ node.children.length = 0 ∧
          whole.children.length = 1 := by
  have hsome : ((circle.hierarchy "A").run {}).1.isSome = true := by decide +kernel
  have hshape : ((circle.hierarchy "A").run {}).1.map
      (fun tree => tree.children.map fun node => (node.name, node.children.length)) =
        some [("B", 0)] := by decide +kernel
  have hwholeShape : ((circle.hierarchy "B").run ((circle.hierarchy "A").run {}).2).1.map
      (fun whole => whole.children.length) = some 1 := by decide +kernel
  obtain ⟨tree, htree⟩ := Option.isSome_iff_exists.mp hsome
  rw [htree, Option.map_some, Option.some.injEq, List.map_eq_singleton_iff] at hshape
  obtain ⟨node, hchildren, hnode⟩ := hshape
  obtain ⟨hname, hleaf⟩ := Prod.mk.inj hnode
  have hmem : node ∈ tree.children := by rw [hchildren]; exact List.mem_singleton_self node
  have hbranch : [tree, node] ∈ tree.branches :=
    Tree.mem_branches_iff.mpr
      (.inr ⟨node, hmem, [node], Tree.mem_branches_iff.mpr (.inl rfl), rfl⟩)
  have hlast : [tree, node].getLast? = some node := rfl
  obtain ⟨whole, hwhole, heq⟩ := subtree_eq_without htree hbranch hlast (view_run_hierarchy "A")
  rw [hname] at hwhole
  rw [hwhole, Option.map_some, Option.some.injEq] at hwholeShape
  exact ⟨tree, htree, node, hmem, whole, hwhole, heq, hleaf, hwholeShape⟩

end Project

end Lineage
