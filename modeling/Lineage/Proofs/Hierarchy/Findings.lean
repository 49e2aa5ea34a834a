import Lineage.Proofs.Hierarchy.Branches
import Mathlib.Data.Finset.Card
import Mathlib.Data.Finset.Dedup
import Mathlib.Data.List.Nodup

/-!
# The tree that lookups determine

A build looks up three things: the tags of an entity, the names nominated for a parent, and the
file that declares a name.  If the answers never change, they determine the tree by themselves.
This module studies that tree apart from any memory: `Findings` holds the answers, and
`Findings.tree` unfolds them below an entity, leaving out what is already on the way there.

The unfolding has a bound on its depth.  Where only the names of a finite list are ever nominated,
the names of the list that are not yet on the way (`room`) get fewer with every level, so a depth
above their number is never used up.

## Main results

* `exists_of_mem_branches`: every branch ends in a tree of the same kind, unfolded below the
  entities on the branch.
* `mem_branchNames_tree_iff`: the branches are the simple paths of the relation `Descends`.
* `nodup_branchNames_tree`: no two branches carry the same names.
* `map_name_children_of_mem_branches`: the children at the end of a branch.
* `hierarchy_congr`: which findings matter to a tree.
-/

namespace Lineage

/-- What the lookups of a build answer. -/
structure Findings where
  tags : Entity → List TagUsage
  nominated : String → List String
  place : String → Option Path

namespace Findings

/-- The entity that a name nominated below a lineage stands for, unless it is on the lineage. -/
def heir? (findings : Findings) (lineage : List Entity) (name : String) : Option Entity :=
  match findings.place name with
  | none => none
  | some path => if ⟨name, path⟩ ∈ lineage then none else some ⟨name, path⟩

/-- The entities that become the children of a parent at the end of a lineage. -/
def heirs (findings : Findings) (lineage : List Entity) (parent : String) : List Entity :=
  (findings.nominated parent).filterMap (findings.heir? lineage)

/-- The tree below an entity with the given ancestors, cut off at a depth. -/
def tree (findings : Findings) : (depth : Nat) → (ancestors : List Entity) → Entity → Tree
  | 0, _, entity => ⟨entity.name, entity.path, findings.tags entity, []⟩
  | depth + 1, ancestors, entity =>
      ⟨entity.name, entity.path, findings.tags entity,
        (findings.heirs (entity :: ancestors) entity.name).map
          (findings.tree depth (entity :: ancestors))⟩

/-- The tree below a name, if it is declared. -/
def hierarchy (findings : Findings) (depth : Nat) (root : String) : Option Tree :=
  (findings.place root).map fun path => findings.tree depth [] ⟨root, path⟩

/-- The child is nominated for the parent and declared somewhere. -/
def Descends (findings : Findings) (parent child : String) : Prop :=
  child ∈ findings.nominated parent ∧ (findings.place child).isSome = true

/-- The entities are those that their names stand for. -/
def Placed (findings : Findings) (lineage : List Entity) : Prop :=
  ∀ entity ∈ lineage, findings.place entity.name = some entity.path

/-- The number of the names that are not on the lineage. -/
def room (names : List String) (lineage : List Entity) : Nat :=
  (names.toFinset \ (lineage.map Entity.name).toFinset).card

variable {findings : Findings}

@[simp] theorem name_tree (depth : Nat) (ancestors : List Entity) (entity : Entity) :
    (findings.tree depth ancestors entity).name = entity.name := by
  cases depth <;> rfl

@[simp] theorem path_tree (depth : Nat) (ancestors : List Entity) (entity : Entity) :
    (findings.tree depth ancestors entity).path = entity.path := by
  cases depth <;> rfl

@[simp] theorem tags_tree (depth : Nat) (ancestors : List Entity) (entity : Entity) :
    (findings.tree depth ancestors entity).tags = findings.tags entity := by
  cases depth <;> rfl

@[simp] theorem entity_tree (depth : Nat) (ancestors : List Entity) (entity : Entity) :
    (findings.tree depth ancestors entity).entity = entity := by
  cases depth <;> rfl

theorem children_tree_succ (depth : Nat) (ancestors : List Entity) (entity : Entity) :
    (findings.tree (depth + 1) ancestors entity).children =
      (findings.heirs (entity :: ancestors) entity.name).map
        (findings.tree depth (entity :: ancestors)) := rfl

/-! ## Heirs -/

theorem heir?_eq_some_iff {lineage : List Entity} {name : String} {heir : Entity} :
    findings.heir? lineage name = some heir ↔
      heir.name = name ∧ findings.place name = some heir.path ∧ heir ∉ lineage := by
  obtain ⟨heirName, heirPath⟩ := heir
  rw [heir?]
  cases hplace : findings.place name with
  | none => simp
  | some path =>
      dsimp only
      by_cases hmem : (⟨name, path⟩ : Entity) ∈ lineage
      · rw [if_pos hmem]
        simp only [reduceCtorEq, Option.some.injEq, false_iff, not_and]
        rintro rfl rfl hfresh
        exact hfresh hmem
      · rw [if_neg hmem]
        simp only [Option.some.injEq, Entity.mk.injEq]
        constructor
        · rintro ⟨rfl, rfl⟩
          exact ⟨rfl, rfl, hmem⟩
        · rintro ⟨rfl, rfl, -⟩
          exact ⟨rfl, rfl⟩

/-- On a lineage of entities that their names stand for, an entity is told by its name. -/
theorem Placed.mem_iff {lineage : List Entity} (hplaced : findings.Placed lineage)
    {entity : Entity} (hentity : findings.place entity.name = some entity.path) :
    entity ∈ lineage ↔ entity.name ∈ lineage.map Entity.name := by
  constructor
  · intro h
    exact List.mem_map_of_mem h
  · intro h
    obtain ⟨other, hother, hname⟩ := List.mem_map.mp h
    have hpath := hplaced other hother
    rw [hname, hentity, Option.some.injEq] at hpath
    obtain ⟨name, path⟩ := entity
    obtain ⟨otherName, otherPath⟩ := other
    simp only at hname hpath
    rwa [hname, ← hpath] at hother

theorem mem_heirs_iff {lineage : List Entity} (hplaced : findings.Placed lineage)
    {parent : String} {heir : Entity} :
    heir ∈ findings.heirs lineage parent ↔
      heir.name ∈ findings.nominated parent ∧ findings.place heir.name = some heir.path ∧
        heir.name ∉ lineage.map Entity.name := by
  rw [heirs, List.mem_filterMap]
  constructor
  · rintro ⟨name, hname, hheir⟩
    obtain ⟨rfl, hplace, hfresh⟩ := heir?_eq_some_iff.mp hheir
    exact ⟨hname, hplace, fun h => hfresh ((hplaced.mem_iff hplace).mpr h)⟩
  · rintro ⟨hname, hplace, hfresh⟩
    refine ⟨heir.name, hname, heir?_eq_some_iff.mpr ⟨rfl, hplace, ?_⟩⟩
    exact fun h => hfresh ((hplaced.mem_iff hplace).mp h)

theorem Placed.singleton {name : String} {path : Path} (h : findings.place name = some path) :
    findings.Placed [⟨name, path⟩] := by
  intro entity hentity
  obtain rfl := List.mem_singleton.mp hentity
  exact h

theorem Placed.cons_heir {lineage : List Entity} (hplaced : findings.Placed lineage)
    {parent : String} {heir : Entity} (hheir : heir ∈ findings.heirs lineage parent) :
    findings.Placed (heir :: lineage) := by
  intro entity hentity
  rcases List.mem_cons.mp hentity with rfl | hentity
  · exact ((mem_heirs_iff hplaced).mp hheir).2.1
  · exact hplaced entity hentity

/-- The names of the heirs are those nominated that are declared and not on the lineage. -/
theorem map_name_heirs {lineage : List Entity} (hplaced : findings.Placed lineage)
    (parent : String) :
    (findings.heirs lineage parent).map Entity.name =
      (findings.nominated parent).filter fun name =>
        (findings.place name).isSome && decide (name ∉ lineage.map Entity.name) := by
  rw [heirs, List.map_filterMap, ← List.filterMap_eq_filter]
  apply List.filterMap_congr
  intro name _
  cases hplace : findings.place name with
  | none => simp [heir?, hplace, Option.guard]
  | some path =>
      have hmem : (⟨name, path⟩ : Entity) ∈ lineage ↔ name ∈ lineage.map Entity.name :=
        hplaced.mem_iff hplace
      by_cases h : name ∈ lineage.map Entity.name
      · have hon : (⟨name, path⟩ : Entity) ∈ lineage := hmem.mpr h
        simp [heir?, hplace, hon, h, Option.guard]
      · have hoff : (⟨name, path⟩ : Entity) ∉ lineage := fun hon => h (hmem.mp hon)
        simp [heir?, hplace, hoff, h, Option.guard]

/-! ## Room -/

/-- There is never more room than there are names. -/
theorem room_lt_length_succ (names : List String) (lineage : List Entity) :
    room names lineage < names.length + 1 := by
  have hsubset : names.toFinset \ (lineage.map Entity.name).toFinset ⊆ names.toFinset :=
    Finset.sdiff_subset
  have hcard := Finset.card_le_card hsubset
  have hlength := names.toFinset_card_le
  rw [room]
  omega

/-- Every heir takes a name away. -/
theorem room_heir_lt {names : List String} {lineage : List Entity} {parent : String}
    {heir : Entity} (hplaced : findings.Placed lineage)
    (hnames : ∀ parent, ∀ name ∈ findings.nominated parent, name ∈ names)
    (hheir : heir ∈ findings.heirs lineage parent) :
    room names (heir :: lineage) < room names lineage := by
  obtain ⟨hname, -, hfresh⟩ := (mem_heirs_iff hplaced).mp hheir
  rw [room, room, List.map_cons, List.toFinset_cons, Finset.sdiff_insert]
  apply Finset.card_erase_lt_of_mem
  rw [Finset.mem_sdiff, List.mem_toFinset, List.mem_toFinset]
  exact ⟨hnames parent heir.name hname, hfresh⟩

/-! ## Branches -/

/-- A branch ends in the tree below its last entity, with the entities before it as ancestors.  The
depth left there still exceeds the room left. -/
theorem exists_of_mem_branches {names : List String}
    (hnames : ∀ parent, ∀ name ∈ findings.nominated parent, name ∈ names)
    {depth : Nat} {ancestors : List Entity} {entity : Entity} {branch : List Tree}
    (hplaced : findings.Placed (entity :: ancestors))
    (hroom : room names (entity :: ancestors) < depth)
    (hbranch : branch ∈ (findings.tree depth ancestors entity).branches) :
    ∃ depth' ancestors' entity',
      branch.getLast? = some (findings.tree depth' ancestors' entity') ∧
      findings.Placed (entity' :: ancestors') ∧
      room names (entity' :: ancestors') < depth' ∧
      entity' :: ancestors' = (branch.map Tree.entity).reverse ++ ancestors := by
  induction depth generalizing ancestors entity branch with
  | zero => exact absurd hroom (Nat.not_lt_zero _)
  | succ depth ih =>
      rcases Tree.mem_branches_iff.mp hbranch with rfl | ⟨child, hchild, rest, hrest, rfl⟩
      · exact ⟨depth + 1, ancestors, entity, rfl, hplaced, hroom, by simp⟩
      · rw [children_tree_succ, List.mem_map] at hchild
        obtain ⟨heir, hheir, rfl⟩ := hchild
        have hless := room_heir_lt hplaced hnames hheir
        obtain ⟨depth', ancestors', entity', hlast, hplaced', hroom', hline⟩ :=
          ih (hplaced.cons_heir hheir) (by omega) hrest
        refine ⟨depth', ancestors', entity', ?_, hplaced', hroom', ?_⟩
        · rw [← hlast]
          obtain ⟨node, more, rfl⟩ :=
            List.exists_cons_of_ne_nil (Tree.ne_nil_of_mem_branches hrest)
          exact List.getLast?_cons_cons
        · rw [hline]
          simp

/-- The children at the end of a branch, by name: whatever is nominated there, is declared and is
not yet on the way, in the order of nomination. -/
theorem map_name_children_of_mem_branches {names : List String}
    (hnames : ∀ parent, ∀ name ∈ findings.nominated parent, name ∈ names)
    {depth : Nat} {ancestors : List Entity} {entity : Entity} {branch : List Tree} {node : Tree}
    (hplaced : findings.Placed (entity :: ancestors))
    (hroom : room names (entity :: ancestors) < depth)
    (hbranch : branch ∈ (findings.tree depth ancestors entity).branches)
    (hnode : branch.getLast? = some node) :
    node.children.map Tree.name =
      (findings.nominated node.name).filter fun name =>
        (findings.place name).isSome &&
          decide (name ∉ branch.map Tree.name ++ ancestors.map Entity.name) := by
  obtain ⟨depth', ancestors', entity', hlast, hplaced', hroom', hline⟩ :=
    exists_of_mem_branches hnames hplaced hroom hbranch
  rw [hnode, Option.some.injEq] at hlast
  subst hlast
  have hnames' : (entity' :: ancestors').map Entity.name =
      (branch.map Tree.name).reverse ++ ancestors.map Entity.name := by
    rw [hline, List.map_append, List.map_reverse, List.map_map]
    rfl
  cases depth' with
  | zero => exact absurd hroom' (Nat.not_lt_zero _)
  | succ depth' =>
      have hchildren : (findings.tree (depth' + 1) ancestors' entity').children.map Tree.name =
          (findings.heirs (entity' :: ancestors') entity'.name).map Entity.name := by
        rw [children_tree_succ, List.map_map]
        exact List.map_congr_left fun heir _ => name_tree _ _ _
      rw [hchildren, map_name_heirs hplaced', hnames', name_tree]
      simp only [List.mem_append, List.mem_reverse]

/-- The branches are the simple paths of the relation `Descends` that start at the entity and keep
clear of its ancestors. -/
theorem mem_branchNames_tree_iff {names : List String}
    (hnames : ∀ parent, ∀ name ∈ findings.nominated parent, name ∈ names)
    {depth : Nat} {ancestors : List Entity} {entity : Entity} {way : List String}
    (hplaced : findings.Placed (entity :: ancestors))
    (hfresh : entity.name ∉ ancestors.map Entity.name)
    (hroom : room names (entity :: ancestors) < depth) :
    way ∈ (findings.tree depth ancestors entity).branchNames ↔
      way.head? = some entity.name ∧ way.IsChain findings.Descends ∧ way.Nodup ∧
        ∀ name ∈ way, name ∉ ancestors.map Entity.name := by
  induction depth generalizing ancestors entity way with
  | zero => exact absurd hroom (Nat.not_lt_zero _)
  | succ depth ih =>
      -- Below an heir the induction hypothesis holds, with the entity among the ancestors.
      have hbelow : ∀ heir ∈ findings.heirs (entity :: ancestors) entity.name, ∀ rest,
          rest ∈ (findings.tree depth (entity :: ancestors) heir).branchNames ↔
            rest.head? = some heir.name ∧ rest.IsChain findings.Descends ∧ rest.Nodup ∧
              ∀ name ∈ rest, name ∉ (entity :: ancestors).map Entity.name := by
        intro heir hheir rest
        have hless := room_heir_lt hplaced hnames hheir
        exact ih (hplaced.cons_heir hheir) ((mem_heirs_iff hplaced).mp hheir).2.2 (by omega)
      rw [Tree.mem_branchNames_iff, name_tree, children_tree_succ]
      constructor
      · rintro (rfl | ⟨child, hchild, rest, hrest, rfl⟩)
        · exact ⟨rfl, .singleton _, List.nodup_singleton _, by simpa using hfresh⟩
        · obtain ⟨heir, hheir, rfl⟩ := List.mem_map.mp hchild
          obtain ⟨hhead, hchain, hnodup, hclear⟩ := (hbelow heir hheir rest).mp hrest
          obtain ⟨hname, hplace, -⟩ := (mem_heirs_iff hplaced).mp hheir
          obtain ⟨more, rfl⟩ := List.head?_eq_some_iff.mp hhead
          refine ⟨rfl, List.isChain_cons_cons.mpr ⟨⟨hname, ?_⟩, hchain⟩, ?_, ?_⟩
          · rw [hplace]
            rfl
          · refine List.nodup_cons.mpr ⟨fun hmem => ?_, hnodup⟩
            exact hclear _ hmem (by simp)
          · intro name hmem
            rcases List.mem_cons.mp hmem with rfl | hmem
            · exact hfresh
            · exact fun hon => hclear name hmem (by simp [hon])
      · rintro ⟨hhead, hchain, hnodup, hclear⟩
        obtain ⟨rest, rfl⟩ := List.head?_eq_some_iff.mp hhead
        cases rest with
        | nil => exact .inl rfl
        | cons next more =>
            obtain ⟨⟨hname, hsome⟩, hchain⟩ := List.isChain_cons_cons.mp hchain
            obtain ⟨hnext, hnodup⟩ := List.nodup_cons.mp hnodup
            obtain ⟨path, hpath⟩ := Option.isSome_iff_exists.mp hsome
            have hclear' : ∀ name ∈ next :: more,
                name ∉ (entity :: ancestors).map Entity.name := by
              intro name hmem hon
              rw [List.map_cons, List.mem_cons] at hon
              rcases hon with rfl | hon
              · exact hnext hmem
              · exact hclear name (List.mem_cons_of_mem _ hmem) hon
            have hheir : ⟨next, path⟩ ∈ findings.heirs (entity :: ancestors) entity.name :=
              (mem_heirs_iff hplaced).mpr ⟨hname, hpath, hclear' next (by simp)⟩
            refine .inr ⟨_, List.mem_map_of_mem hheir, next :: more, ?_, rfl⟩
            exact (hbelow _ hheir _).mpr ⟨rfl, hchain, hnodup, hclear'⟩

/-- On a way of the relation every name but the first is nominated. -/
theorem exists_nominated_of_isChain {first : String} {way : List String}
    (h : (first :: way).IsChain findings.Descends) :
    ∀ name ∈ way, ∃ parent, name ∈ findings.nominated parent := by
  induction way generalizing first with
  | nil => simp
  | cons next way ih =>
      obtain ⟨⟨hnext, -⟩, hrest⟩ := List.isChain_cons_cons.mp h
      intro name hname
      rcases List.mem_cons.mp hname with rfl | hname
      · exact ⟨first, hnext⟩
      · exact ih hrest name hname

/-- Branches are told apart by their names, if no name is nominated twice. -/
theorem nodup_branchNames_tree (hnodup : ∀ parent, (findings.nominated parent).Nodup)
    {depth : Nat} {ancestors : List Entity} {entity : Entity}
    (hplaced : findings.Placed (entity :: ancestors)) :
    (findings.tree depth ancestors entity).branchNames.Nodup := by
  induction depth generalizing ancestors entity with
  | zero => simp [Tree.branchNames_eq, tree]
  | succ depth ih =>
      have hheirs : ((findings.heirs (entity :: ancestors) entity.name).map Entity.name).Nodup := by
        rw [map_name_heirs hplaced]
        exact (hnodup entity.name).filter _
      rw [Tree.branchNames_eq, name_tree, children_tree_succ, List.nodup_cons]
      constructor
      · intro hmem
        obtain ⟨rest, hrest, hsame⟩ := List.mem_map.mp hmem
        obtain ⟨child, -, hrest⟩ := List.mem_flatMap.mp hrest
        obtain ⟨-, rfl⟩ := List.cons.inj hsame
        cases Tree.head?_of_mem_branchNames hrest
      · refine List.Nodup.map (fun _ _ h => (List.cons.inj h).2) ?_
        rw [List.flatMap_map, List.nodup_flatMap]
        refine ⟨fun heir hheir => ih (hplaced.cons_heir hheir), ?_⟩
        -- Branches below different heirs differ in their first name.
        refine (List.pairwise_map.mp hheirs).imp ?_
        intro heir other hne way hway hother
        have hhead := Tree.head?_of_mem_branchNames hway
        rw [Tree.head?_of_mem_branchNames hother, name_tree, name_tree, Option.some.injEq] at hhead
        exact hne hhead.symm

/-! ## Findings that agree -/

/-- Into a tree come only the tags of entities that their names stand for. -/
theorem tree_congr {other : Findings} (hnominated : other.nominated = findings.nominated)
    (hplace : other.place = findings.place)
    (htags : ∀ entity : Entity, findings.place entity.name = some entity.path →
      other.tags entity = findings.tags entity)
    (depth : Nat) (ancestors : List Entity) {entity : Entity}
    (hentity : findings.place entity.name = some entity.path) :
    other.tree depth ancestors entity = findings.tree depth ancestors entity := by
  induction depth generalizing ancestors entity with
  | zero => rw [tree, tree, htags entity hentity]
  | succ depth ih =>
      have hheirs : other.heirs (entity :: ancestors) entity.name =
          findings.heirs (entity :: ancestors) entity.name := by
        have hheir : other.heir? (entity :: ancestors) = findings.heir? (entity :: ancestors) := by
          funext name
          rw [heir?, heir?, hplace]
        rw [heirs, heirs, hnominated, hheir]
      rw [tree, tree, htags entity hentity, hheirs]
      congr 1
      refine List.map_congr_left fun heir hheir => ?_
      obtain ⟨name, -, hsome⟩ := List.mem_filterMap.mp hheir
      obtain ⟨rfl, hplaced, -⟩ := heir?_eq_some_iff.mp hsome
      exact ih (entity :: ancestors) hplaced

theorem hierarchy_congr {other : Findings} (hnominated : other.nominated = findings.nominated)
    (hplace : other.place = findings.place)
    (htags : ∀ entity : Entity, findings.place entity.name = some entity.path →
      other.tags entity = findings.tags entity)
    (depth : Nat) (root : String) :
    other.hierarchy depth root = findings.hierarchy depth root := by
  rw [hierarchy, hierarchy, hplace]
  cases hroot : findings.place root with
  | none => rfl
  | some path => exact congrArg some (tree_congr hnominated hplace htags depth [] hroot)

end Findings

end Lineage
