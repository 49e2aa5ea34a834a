import Lineage.Proofs.Hierarchy.Lookups

/-!
# What a build does

A build counts its levels down, from one more than the number of names that the code of the project
can nominate, and it remembers what it has looked up.  Neither can be told from its answer.  A build
is the counted recursion over the steps that remember, step for step, with the same reads and the
same notices; these steps are faithful to the answers of the start; and there is never as much room
on the way as the count allows for.

## Main results

* `joined_grow`: the recursion of a build is the counted recursion over the steps that remember.
* `composed_growRoot`: the recursion is put together from reads.
* `hierarchy_eq`: what a build answers, in terms of the findings of its start.
* `steady_hierarchy`: a build leaves the texts in sight as they are, and they determine its answer.
* `hierarchy_anew`: a build that remembers nothing answers the same.
-/

namespace Lineage.Project

variable {project : Project} {memory : Memory}

/-! ## The steps of a build in order -/

/-- The tree of a child in a build, if the child is declared and not on the way. -/
def growHeir (project : Project) (depth : Nat) (lineage : List Entity) (parent name : String) :
    Build (Option Tree) := do
  match ← project.placeOf name with
  | none => return none
  | some path =>
      if ⟨name, path⟩ ∈ lineage then
        note (.cycle name parent)
        return none
      else
        let tree ← project.grow depth lineage ⟨name, path⟩
        return some tree

/-- The tree below a name in a build, if some file declares the name. -/
def growRoot (project : Project) (depth : Nat) (name : String) : Build (Option Tree) := do
  match ← project.placeOf name with
  | none =>
      note (.rootMissing name)
      return none
  | some path =>
      let tree ← project.grow depth [] ⟨name, path⟩
      return some tree

theorem grow_zero (ancestors : List Entity) (entity : Entity) :
    project.grow 0 ancestors entity = (do
      let tags ← project.entityTags entity.name entity.path
      return ⟨entity.name, entity.path, tags, []⟩) := by
  rw [grow]

theorem grow_succ (depth : Nat) (ancestors : List Entity) (entity : Entity) :
    project.grow (depth + 1) ancestors entity = (do
      let tags ← project.entityTags entity.name entity.path
      let names ← project.nominatedFor entity.name
      let children ← collectTrees
        (project.growHeir depth (entity :: ancestors) entity.name) names
      return ⟨entity.name, entity.path, tags, children⟩) := by
  rw [grow]
  rfl

theorem joined_growHeir (depth : Nat) (lineage : List Entity) (parent name : String) :
    (project.growHeir depth lineage parent name).joined = (do
      match ← project.remembering.heir? lineage parent name with
      | none => return none
      | some heir =>
          let tree ← (project.grow depth lineage heir).joined
          return some tree) := by
  rw [growHeir, Build.joined_bind, Descent.heir?, bind_assoc]
  refine bind_congr fun place => ?_
  cases place with
  | none => rfl
  | some path =>
      by_cases hmem : (⟨name, path⟩ : Entity) ∈ lineage
      · simp only [if_pos hmem]
        rfl
      · simp only [if_neg hmem]
        rfl

theorem joined_collectTrees (depth : Nat) (lineage : List Entity) (parent : String)
    (names : List String) :
    (collectTrees (project.growHeir depth lineage parent) names).joined =
      project.remembering.collect lineage parent
        (fun heir => (project.grow depth lineage heir).joined) names := by
  induction names with
  | nil => rfl
  | cons name names ih =>
      rw [collectTrees, Build.joined_bind, joined_growHeir, bind_assoc, Descent.collect, ← ih]
      refine bind_congr fun heir? => ?_
      cases heir? with
      | none => rfl
      | some heir => rfl

/-- A build is the counted recursion over the steps that remember. -/
theorem joined_grow (depth : Nat) (ancestors : List Entity) (entity : Entity) :
    (project.grow depth ancestors entity).joined =
      project.remembering.growTo depth ancestors entity := by
  induction depth generalizing ancestors entity with
  | zero =>
      rw [grow_zero]
      rfl
  | succ depth ih =>
      rw [grow_succ, Descent.growTo, Build.joined_bind]
      refine bind_congr fun tags => ?_
      rw [Build.joined_bind]
      refine bind_congr fun names => ?_
      have hgrow : (fun heir => (project.grow depth (entity :: ancestors) heir).joined) =
          project.remembering.growTo depth (entity :: ancestors) := by
        funext heir
        exact ih (entity :: ancestors) heir
      rw [Build.joined_bind, joined_collectTrees, hgrow]
      rfl

theorem joined_growRoot (depth : Nat) (root : String) :
    (project.growRoot depth root).joined = project.remembering.hierarchyTo depth root := by
  rw [growRoot, Build.joined_bind, Descent.hierarchyTo, Descent.root?, bind_assoc]
  refine bind_congr fun place => ?_
  cases place with
  | none => rfl
  | some path =>
      simp only [pure_bind, ← joined_grow]
      rfl

/-! ## What a build is made of -/

theorem composed_run_lift {α : Type} {scan : Scan α} (h : Composed project scan)
    (lookups : Lookups) : Composed project ((liftM scan : Build α).run lookups) := by
  show Composed project (scan >>= fun a => Pure.pure (a, lookups))
  exact h.bind fun _ => .pure _

theorem composed_run_bind {α β : Type} {build : Build α} {next : α → Build β}
    (hbuild : ∀ lookups, Composed project (build.run lookups))
    (hnext : ∀ a lookups, Composed project ((next a).run lookups)) (lookups : Lookups) :
    Composed project ((build >>= next).run lookups) := by
  rw [StateT.run_bind]
  exact (hbuild lookups).bind fun result => hnext result.1 result.2

theorem composed_placeOf (name : String) (lookups : Lookups) :
    Composed project ((project.placeOf name).run lookups) := by
  rw [placeOf, StateT.run_bind, StateT.run_get, pure_bind]
  cases lookups.places.get? name with
  | some place => exact .pure _
  | none =>
      exact composed_run_bind (composed_run_lift (composed_locate name)) (fun _ _ => .pure _)
        lookups

theorem composed_nominatedFor (parent : String) (lookups : Lookups) :
    Composed project ((project.nominatedFor parent).run lookups) := by
  rw [nominatedFor, StateT.run_bind, StateT.run_get, pure_bind]
  cases lookups.nominations.get? parent with
  | some names => exact .pure _
  | none =>
      refine composed_run_bind (composed_run_lift (composed_children _ parent)) ?_ lookups
      exact fun _ _ => .pure _

theorem composed_collectTrees {build : String → Build (Option Tree)}
    (hbuild : ∀ name lookups, Composed project ((build name).run lookups)) (names : List String)
    (lookups : Lookups) : Composed project ((collectTrees build names).run lookups) := by
  induction names generalizing lookups with
  | nil => exact .pure _
  | cons name names ih =>
      refine composed_run_bind (hbuild name) (fun tree => ?_) lookups
      cases tree with
      | none => exact ih
      | some tree => exact composed_run_bind ih fun _ _ => .pure _

theorem composed_grow (depth : Nat) (ancestors : List Entity) (entity : Entity)
    (lookups : Lookups) : Composed project ((project.grow depth ancestors entity).run lookups) := by
  have htags (entity : Entity) := composed_run_lift
    (project.composed_entityTags entity.name entity.path)
  induction depth generalizing ancestors entity lookups with
  | zero =>
      rw [grow_zero]
      exact composed_run_bind (htags entity) (fun _ _ => .pure _) lookups
  | succ depth ih =>
      rw [grow_succ]
      refine composed_run_bind (htags entity) (fun tags => ?_) lookups
      refine composed_run_bind (composed_nominatedFor entity.name) fun names => ?_
      refine composed_run_bind (composed_collectTrees (fun name => ?_) names) fun _ _ => .pure _
      refine composed_run_bind (composed_placeOf name) fun place => ?_
      cases place with
      | none => exact fun _ => .pure _
      | some path =>
          dsimp only
          split
          · exact composed_run_bind (composed_run_lift (composed_note _)) fun _ _ => .pure _
          · exact composed_run_bind (ih (entity :: ancestors) ⟨name, path⟩) fun _ _ => .pure _

theorem composed_growRoot (depth : Nat) (name : String) (lookups : Lookups) :
    Composed project ((project.growRoot depth name).run lookups) := by
  refine composed_run_bind (composed_placeOf name) (fun place => ?_) lookups
  cases place with
  | none => exact composed_run_bind (composed_run_lift (composed_note _)) fun _ _ => .pure _
  | some path => exact composed_run_bind (composed_grow depth [] ⟨name, path⟩) fun _ _ => .pure _

/-! ## Whole builds -/

/-- A build is a run of the counted recursion that forgets its lookups at the end. -/
theorem exists_run_hierarchyTo (project : Project) (memory : Memory) (root : String) :
    ∃ lookups, (project.remembering.hierarchyTo ((project.nominableNames memory).length + 1)
        root).run ({}, memory) =
      (((project.hierarchy root).run memory).1,
        (lookups, ((project.hierarchy root).run memory).2)) := by
  rw [← joined_growRoot]
  exact ⟨_, rfl⟩

/-- The recursion without a count ends, and just as the build does. -/
theorem builds_remembering (root : String) :
    ∃ lookups, project.remembering.Builds root ({}, memory)
      ((project.hierarchy root).run memory).1
      (lookups, ((project.hierarchy root).run memory).2) := by
  obtain ⟨lookups, hrun⟩ := exists_run_hierarchyTo project memory root
  have hbuilds := (project.faithful_remembering memory).builds_hierarchyTo
    (project.mem_nominableNames_of_mem_nominated memory) root recalls_nothing
  rw [hrun] at hbuilds
  exact ⟨lookups, hbuilds⟩

/-- What a build answers: the tree that the lookups of its start determine. -/
theorem hierarchy_eq (root : String) :
    ((project.hierarchy root).run memory).1 =
      (project.findings memory).hierarchy ((project.nominableNames memory).length + 1) root := by
  obtain ⟨lookups, hrun⟩ := exists_run_hierarchyTo project memory root
  have hanswer := ((project.faithful_remembering memory).finds_hierarchyTo
    ((project.nominableNames memory).length + 1) root _ recalls_nothing).1
  rwa [hrun] at hanswer

/-- A build leaves the texts in sight as they are. -/
theorem view_run_hierarchy (root : String) :
    project.view ((project.hierarchy root).run memory).2 = project.view memory := by
  obtain ⟨lookups, hrun⟩ := exists_run_hierarchyTo project memory root
  have hholds := ((project.faithful_remembering memory).finds_hierarchyTo
    ((project.nominableNames memory).length + 1) root _ recalls_nothing).2
  rw [hrun] at hholds
  exact hholds.view_eq

/-- A build is a steady scan: it can be made at any moment with the same answer. -/
theorem steady_hierarchy (root : String) : Steady project (project.hierarchy root) where
  view_run _ := view_run_hierarchy root
  answer_eq memory other hview := by
    rw [hierarchy_eq, hierarchy_eq, findings_congr hview, nominableNames_congr hview]

/-- What a build remembers changes nothing: the recursion that looks everything up anew at every use
ends as well, and it cannot end but in the same tree. -/
theorem hierarchy_anew (project : Project) (memory : Memory) (root : String) :
    (∃ final, project.anew.Builds root memory ((project.hierarchy root).run memory).1 final) ∧
      ∀ answer final, project.anew.Builds root memory answer final →
        answer = ((project.hierarchy root).run memory).1 := by
  have hfaithful := project.faithful_anew memory
  have hbuilds := hfaithful.builds_hierarchyTo
    (project.mem_nominableNames_of_mem_nominated memory) root rfl
  have hanswer := (hfaithful.finds_hierarchyTo
    ((project.nominableNames memory).length + 1) root memory rfl).1
  rw [hierarchy_eq, ← hanswer]
  refine ⟨⟨_, hbuilds⟩, ?_⟩
  intro answer final hother
  exact (hother.unique hbuilds).1

end Lineage.Project
