import Lineage.Proofs.Hierarchy.Nominees
import Lineage.Proofs.Hierarchy.Recursion

/-!
# Looking things up once

A build remembers what it has looked up, and it carries this and the memory of its reads through
the whole recursion.  The invariant is that every answer remembered is the one that a lookup from
the memory at the start gives.  As lookups are steady, that stays the answer of a lookup made at any
later moment, so what is looked up once need not be looked up again.

The steps of a build are stated twice: once as they are, with what they remember, and once with
every lookup made anew.  Both are faithful to the same findings.

## Main results

* `finds_placeOf`, `finds_nominatedFor`: a lookup gives the answer of the start, remembered or not.
* `faithful_remembering`, `faithful_anew`: the steps of a build give these answers with what they
  remember, and just the same without.
-/

namespace Lineage

variable {α β : Type} {project : Project} {memory : Memory}

/-! ## Answers of the start -/

/-- What the lookups of a build answer when they are made from a memory. -/
def Project.findings (project : Project) (memory : Memory) : Findings where
  tags entity := ((project.entityTags entity.name entity.path).run memory).1
  nominated parent :=
    firstsBy id ((((project.children ChildRule.all parent).run memory).1).map Entity.name)
  place name := ((project.locate name).run memory).1

/-- The answers are a matter of the texts in sight. -/
theorem Project.findings_congr {other : Memory}
    (hview : project.view memory = project.view other) :
    project.findings memory = project.findings other := by
  have htags (entity : Entity) :=
    (project.steady_entityTags entity.name entity.path).answer_eq _ _ hview
  have hchildren (parent : String) :=
    (project.steady_children ChildRule.all parent).answer_eq _ _ hview
  have hplace (name : String) := (project.steady_locate name).answer_eq _ _ hview
  rw [findings, findings]
  simp only [htags, hchildren, hplace]

theorem Project.nodup_nominated (parent : String) :
    ((project.findings memory).nominated parent).Nodup :=
  firstsBy_id_nodup _

theorem Project.nominable_of_mem_nominated {parent name : String}
    (h : name ∈ (project.findings memory).nominated parent) :
    name ∈ project.Nominable memory := by
  obtain ⟨entity, hentity, rfl⟩ := List.mem_map.mp (mem_firstsBy_id.mp h)
  exact Project.nominable_of_mem_children hentity

theorem Project.mem_nominableNames_of_mem_nominated (project : Project) (memory : Memory)
    (parent : String) :
    ∀ name ∈ (project.findings memory).nominated parent, name ∈ project.nominableNames memory :=
  fun _ h => Project.mem_nominableNames_iff.mpr (Project.nominable_of_mem_nominated h)

/-! ## Tables of answers -/

/-- Whatever the table has under a key is the answer for that key. -/
def Keyed.Answers {κ : Type} [DecidableEq κ] (entries : Keyed κ α) (answer : κ → α) : Prop :=
  ∀ key value, entries.get? key = some value → value = answer key

theorem Keyed.answers_nil {κ : Type} [DecidableEq κ] (answer : κ → α) :
    Keyed.Answers [] answer := by
  intro key value h
  cases h

theorem Keyed.Answers.set {κ : Type} [DecidableEq κ] {entries : Keyed κ α} {answer : κ → α}
    (h : entries.Answers answer) {key : κ} {value : α} (hvalue : value = answer key) :
    Keyed.Answers (entries.set key value) answer := by
  intro other found hfound
  have hothers : entries.get? other = some found → found = answer other := h other found
  grind

/-- What a build remembers and the memory of its reads, in a build that began with `memory`: the
same texts are in sight as then, and what is remembered is what lookups answered then. -/
structure Recalls (project : Project) (memory : Memory) (state : Lookups × Memory) : Prop where
  view_eq : project.view state.2 = project.view memory
  places : state.1.places.Answers (project.findings memory).place
  nominations : state.1.nominations.Answers (project.findings memory).nominated

theorem recalls_nothing : Recalls project memory ({}, memory) where
  view_eq := rfl
  places := Keyed.answers_nil _
  nominations := Keyed.answers_nil _

/-! ## Lookups of a build -/

/-- A step of a build, over what is remembered and the memory of the reads together. -/
def Build.joined (build : Build α) : StateM (Lookups × Memory) α := fun state =>
  let result := (build.run state.1).run state.2
  (result.1.1, (result.1.2, result.2))

theorem Build.run_joined (build : Build α) (state : Lookups × Memory) :
    build.joined.run state =
      let result := (build.run state.1).run state.2
      (result.1.1, (result.1.2, result.2)) := rfl

theorem Build.joined_bind (build : Build α) (next : α → Build β) :
    Build.joined (build >>= next) = build.joined >>= fun a => (next a).joined := rfl

/-- A steady scan answers as it would have done at the start. -/
theorem Steady.finds {scan : Scan α} (hscan : Steady project scan) :
    Finds (fun now => project.view now = project.view memory) scan (scan.run memory).1 := by
  intro now hview
  exact ⟨hscan.answer_eq _ _ hview, (hscan.view_run now).trans hview⟩

theorem Steady.finds_joined {scan : Scan α} (hscan : Steady project scan) :
    Finds (Recalls project memory) (Build.joined (liftM scan)) (scan.run memory).1 := by
  intro state hstate
  obtain ⟨hanswer, hview⟩ := hscan.finds state.2 hstate.view_eq
  exact ⟨hanswer, hview, hstate.places, hstate.nominations⟩

theorem run_joined_placeOf (name : String) (state : Lookups × Memory) :
    (project.placeOf name).joined.run state =
      match state.1.places.get? name with
      | some place => (place, state)
      | none =>
          let found := (project.locate name).run state.2
          (found.1, ({ state.1 with places := state.1.places.set name found.1 }, found.2)) := by
  obtain ⟨lookups, now⟩ := state
  rw [Build.run_joined, Project.placeOf, StateT.run_bind, StateT.run_get, pure_bind]
  cases lookups.places.get? name <;> rfl

theorem finds_placeOf (name : String) :
    Finds (Recalls project memory) (project.placeOf name).joined
      ((project.findings memory).place name) := by
  intro state hstate
  rw [run_joined_placeOf]
  cases hknown : state.1.places.get? name with
  | some place => exact ⟨hstate.places name place hknown, hstate⟩
  | none =>
      obtain ⟨hanswer, hview⟩ := (project.steady_locate name).finds state.2 hstate.view_eq
      exact ⟨hanswer, hview, hstate.places.set hanswer, hstate.nominations⟩

theorem run_joined_nominatedFor (parent : String) (state : Lookups × Memory) :
    (project.nominatedFor parent).joined.run state =
      match state.1.nominations.get? parent with
      | some names => (names, state)
      | none =>
          let found := (project.children ChildRule.all parent).run state.2
          let names := firstsBy id (found.1.map Entity.name)
          (names, ({ state.1 with nominations := state.1.nominations.set parent names },
            found.2)) := by
  obtain ⟨lookups, now⟩ := state
  rw [Build.run_joined, Project.nominatedFor, StateT.run_bind, StateT.run_get, pure_bind]
  cases lookups.nominations.get? parent <;> rfl

/-- The names nominated for a parent, with its children looked up anew. -/
def Project.nominatedAnew (project : Project) (parent : String) : Scan (List String) := do
  let entities ← project.children ChildRule.all parent
  return firstsBy id (entities.map Entity.name)

theorem Project.steady_nominatedAnew (parent : String) :
    Steady project (project.nominatedAnew parent) :=
  (project.steady_children _ parent).bind fun _ => .pure _

theorem finds_nominatedFor (parent : String) :
    Finds (Recalls project memory) (project.nominatedFor parent).joined
      ((project.findings memory).nominated parent) := by
  intro state hstate
  rw [run_joined_nominatedFor]
  cases hknown : state.1.nominations.get? parent with
  | some names => exact ⟨hstate.nominations parent names hknown, hstate⟩
  | none =>
      obtain ⟨hanswer, hview⟩ := (project.steady_nominatedAnew parent).finds state.2 hstate.view_eq
      exact ⟨hanswer, hview, hstate.places, hstate.nominations.set hanswer⟩

/-! ## The steps of a build -/

namespace Project

/-- The steps as a build takes them, with what it remembers. -/
def remembering (project : Project) : Descent (Lookups × Memory) where
  tags entity := Build.joined (liftM (project.entityTags entity.name entity.path))
  nominated parent := (project.nominatedFor parent).joined
  place name := (project.placeOf name).joined
  cut name parent := Build.joined (liftM (note (.cycle name parent)))
  missing name := Build.joined (liftM (note (.rootMissing name)))

/-- The steps with every lookup made anew. -/
def anew (project : Project) : Descent Memory where
  tags entity := project.entityTags entity.name entity.path
  nominated parent := project.nominatedAnew parent
  place name := project.locate name
  cut name parent := note (.cycle name parent)
  missing name := note (.rootMissing name)

theorem faithful_remembering (project : Project) (memory : Memory) :
    project.remembering.Faithful (Recalls project memory) (project.findings memory) where
  tags entity := (project.steady_entityTags entity.name entity.path).finds_joined
  nominated parent := finds_nominatedFor parent
  place name := finds_placeOf name
  cut _ _ := (steady_note _).finds_joined
  missing _ := (steady_note _).finds_joined

theorem faithful_anew (project : Project) (memory : Memory) :
    project.anew.Faithful (fun now => project.view now = project.view memory)
      (project.findings memory) where
  tags entity := (project.steady_entityTags entity.name entity.path).finds
  nominated parent := (project.steady_nominatedAnew parent).finds
  place name := (project.steady_locate name).finds
  cut _ _ := (steady_note _).finds
  missing _ := (steady_note _).finds

end Project

end Lineage
