import Lineage.Proofs.Hierarchy.Findings

/-!
# The recursion, with and without a count

The recursion that builds a hierarchy needs no count of levels: it goes down as long as there is a
child that is not yet on the way.  `Grows` states it in that form, as a relation between the states
before and after, over any steps that look things up.  There is a derivation exactly if the
recursion ends.  `Descent.growTo` is the recursion that gives up at some depth.

The measure that makes the recursion end is the room on the way, and the invariant that carries the
induction is a property of states under which every step keeps giving the answers of some
`Findings`.

## Main results

* `Builds.unique`: the recursion has one outcome at most.
* `Faithful.finds_growTo`: with faithful steps the counted recursion gives the tree of the findings.
* `Faithful.grows_growTo`: as long as the count exceeds the room, the recursion without a count ends
  just as the counted one does.
* `Faithful.builds_hierarchyTo`: so does the search for the root with the recursion below it.
-/

namespace Lineage

variable {α β σ : Type} {holds : σ → Prop}

/-! ## Answers under an invariant -/

/-- From every state with the invariant the step gives the answer and keeps the invariant. -/
def Finds (holds : σ → Prop) (step : StateM σ α) (answer : α) : Prop :=
  ∀ state, holds state → (step.run state).1 = answer ∧ holds (step.run state).2

theorem run_bind (step : StateM σ α) (next : α → StateM σ β) (state : σ) :
    (step >>= next).run state = (next (step.run state).1).run (step.run state).2 := rfl

namespace Finds

theorem pure (a : α) : Finds holds (Pure.pure a) a :=
  fun _ hstate => ⟨rfl, hstate⟩

theorem bind {step : StateM σ α} {next : α → StateM σ β} {a : α} {b : β}
    (hstep : Finds holds step a) (hnext : Finds holds (next a) b) :
    Finds holds (step >>= next) b := by
  intro state hstate
  obtain ⟨hanswer, hholds⟩ := hstep state hstate
  rw [run_bind, hanswer]
  exact hnext _ hholds

end Finds

/-! ## The recursion -/

/-- The steps by which a recursion looks up what it needs to go down. -/
structure Descent (σ : Type) where
  /-- The tags of an entity. -/
  tags : Entity → StateM σ (List TagUsage)
  /-- The names nominated for a parent, each once. -/
  nominated : String → StateM σ (List String)
  /-- The file that declares a name. -/
  place : String → StateM σ (Option Path)
  /-- What happens when a name nominated for a parent is on the way already. -/
  cut : (name parent : String) → StateM σ Unit
  /-- What happens when no file declares the root. -/
  missing : String → StateM σ Unit

namespace Descent

/-- The entity that a name nominated for a parent stands for, unless it is on the way. -/
def heir? (descent : Descent σ) (lineage : List Entity) (parent name : String) :
    StateM σ (Option Entity) := do
  match ← descent.place name with
  | none => return none
  | some path =>
      if ⟨name, path⟩ ∈ lineage then
        descent.cut name parent
        return none
      else return some ⟨name, path⟩

/-- The entity that the root stands for. -/
def root? (descent : Descent σ) (name : String) : StateM σ (Option Entity) := do
  match ← descent.place name with
  | none =>
      descent.missing name
      return none
  | some path => return some ⟨name, path⟩

mutual

/-- From the state before, the recursion below an entity with the given ancestors ends with the tree
and in the state after. -/
inductive Grows (descent : Descent σ) : List Entity → Entity → σ → Tree → σ → Prop where
  | node {ancestors : List Entity} {entity : Entity} {before tagged listed after : σ}
      {tags : List TagUsage} {names : List String} {children : List Tree}
      (htags : (descent.tags entity).run before = (tags, tagged))
      (hnames : (descent.nominated entity.name).run tagged = (names, listed))
      (hchildren : GrowsAll descent (entity :: ancestors) entity.name names listed children after) :
      Grows descent ancestors entity before ⟨entity.name, entity.path, tags, children⟩ after

/-- The recursion for some of the names nominated for the parent ends with the trees. -/
inductive GrowsAll (descent : Descent σ) :
    List Entity → String → List String → σ → List Tree → σ → Prop where
  | nil {lineage : List Entity} {parent : String} {state : σ} :
      GrowsAll descent lineage parent [] state [] state
  | pass {lineage : List Entity} {parent name : String} {names : List String}
      {before passed after : σ} {trees : List Tree}
      (hheir : (descent.heir? lineage parent name).run before = (none, passed))
      (hrest : GrowsAll descent lineage parent names passed trees after) :
      GrowsAll descent lineage parent (name :: names) before trees after
  | cons {lineage : List Entity} {parent name : String} {names : List String} {heir : Entity}
      {before located grown after : σ} {tree : Tree} {trees : List Tree}
      (hheir : (descent.heir? lineage parent name).run before = (some heir, located))
      (htree : Grows descent lineage heir located tree grown)
      (hrest : GrowsAll descent lineage parent names grown trees after) :
      GrowsAll descent lineage parent (name :: names) before (tree :: trees) after

end

/-- The search for the root and the recursion below it end with the answer. -/
inductive Builds (descent : Descent σ) (root : String) : σ → Option Tree → σ → Prop where
  | missing {before after : σ} (hroot : (descent.root? root).run before = (none, after)) :
      Builds descent root before none after
  | found {before located after : σ} {entity : Entity} {tree : Tree}
      (hroot : (descent.root? root).run before = (some entity, located))
      (htree : Grows descent [] entity located tree after) :
      Builds descent root before (some tree) after

variable {descent : Descent σ}

mutual

theorem Grows.unique {ancestors : List Entity} {entity : Entity} {before after after' : σ}
    {tree tree' : Tree} (h : descent.Grows ancestors entity before tree after)
    (h' : descent.Grows ancestors entity before tree' after') :
    tree = tree' ∧ after = after' := by
  match h, h' with
  | .node htags hnames hchildren, .node htags' hnames' hchildren' =>
      cases htags.symm.trans htags'
      cases hnames.symm.trans hnames'
      obtain ⟨rfl, rfl⟩ := hchildren.unique hchildren'
      exact ⟨rfl, rfl⟩

theorem GrowsAll.unique {lineage : List Entity} {parent : String} {names : List String}
    {before after after' : σ} {trees trees' : List Tree}
    (h : descent.GrowsAll lineage parent names before trees after)
    (h' : descent.GrowsAll lineage parent names before trees' after') :
    trees = trees' ∧ after = after' := by
  match h, h' with
  | .nil, .nil => exact ⟨rfl, rfl⟩
  | .pass hheir hrest, .pass hheir' hrest' =>
      cases hheir.symm.trans hheir'
      exact hrest.unique hrest'
  | .pass hheir _, .cons hheir' _ _ => cases hheir.symm.trans hheir'
  | .cons hheir _ _, .pass hheir' _ => cases hheir.symm.trans hheir'
  | .cons hheir htree hrest, .cons hheir' htree' hrest' =>
      cases hheir.symm.trans hheir'
      obtain ⟨rfl, rfl⟩ := htree.unique htree'
      obtain ⟨rfl, rfl⟩ := hrest.unique hrest'
      exact ⟨rfl, rfl⟩

end

/-- The recursion has one outcome at most. -/
theorem Builds.unique {root : String} {before after after' : σ} {answer answer' : Option Tree}
    (h : descent.Builds root before answer after)
    (h' : descent.Builds root before answer' after') : answer = answer' ∧ after = after' := by
  cases h with
  | missing hroot =>
      cases h' with
      | missing hroot' =>
          cases hroot.symm.trans hroot'
          exact ⟨rfl, rfl⟩
      | found hroot' _ => cases hroot.symm.trans hroot'
  | found hroot htree =>
      cases h' with
      | missing hroot' => cases hroot.symm.trans hroot'
      | found hroot' htree' =>
          cases hroot.symm.trans hroot'
          obtain ⟨rfl, rfl⟩ := htree.unique htree'
          exact ⟨rfl, rfl⟩

/-! ## The recursion with a count -/

/-- The trees below the entities that some of the nominated names stand for. -/
def collect (descent : Descent σ) (lineage : List Entity) (parent : String)
    (grow : Entity → StateM σ Tree) : List String → StateM σ (List Tree)
  | [] => return []
  | name :: names => do
      match ← descent.heir? lineage parent name with
      | none => descent.collect lineage parent grow names
      | some heir =>
          let tree ← grow heir
          let trees ← descent.collect lineage parent grow names
          return tree :: trees

/-- The tree below an entity with the given ancestors, given up at a depth. -/
def growTo (descent : Descent σ) : (depth : Nat) → (ancestors : List Entity) → Entity →
    StateM σ Tree
  | 0, _, entity => do
      let tags ← descent.tags entity
      return ⟨entity.name, entity.path, tags, []⟩
  | depth + 1, ancestors, entity => do
      let tags ← descent.tags entity
      let names ← descent.nominated entity.name
      let children ← descent.collect (entity :: ancestors) entity.name
        (descent.growTo depth (entity :: ancestors)) names
      return ⟨entity.name, entity.path, tags, children⟩

/-- The tree below a name, if some file declares it, given up at a depth. -/
def hierarchyTo (descent : Descent σ) (depth : Nat) (root : String) : StateM σ (Option Tree) := do
  match ← descent.root? root with
  | none => return none
  | some entity =>
      let tree ← descent.growTo depth [] entity
      return some tree

/-- The steps give the answers of the findings as long as the invariant holds, and keep it. -/
structure Faithful (descent : Descent σ) (holds : σ → Prop) (findings : Findings) : Prop where
  tags : ∀ entity, Finds holds (descent.tags entity) (findings.tags entity)
  nominated : ∀ parent, Finds holds (descent.nominated parent) (findings.nominated parent)
  place : ∀ name, Finds holds (descent.place name) (findings.place name)
  cut : ∀ name parent, Finds holds (descent.cut name parent) ()
  missing : ∀ name, Finds holds (descent.missing name) ()

namespace Faithful

variable {findings : Findings} {names : List String}

theorem finds_heir? (hfaithful : descent.Faithful holds findings) (lineage : List Entity)
    (parent name : String) :
    Finds holds (descent.heir? lineage parent name) (findings.heir? lineage name) := by
  rw [heir?, Findings.heir?]
  refine (hfaithful.place name).bind ?_
  cases findings.place name with
  | none => exact .pure none
  | some path =>
      by_cases hmem : (⟨name, path⟩ : Entity) ∈ lineage
      · simp only [if_pos hmem]
        exact (hfaithful.cut name parent).bind (.pure none)
      · simp only [if_neg hmem]
        exact .pure _

theorem finds_root? (hfaithful : descent.Faithful holds findings) (name : String) :
    Finds holds (descent.root? name) ((findings.place name).map (Entity.mk name)) := by
  rw [root?]
  refine (hfaithful.place name).bind ?_
  cases findings.place name with
  | none => exact (hfaithful.missing name).bind (.pure none)
  | some path => exact .pure _

theorem finds_collect (hfaithful : descent.Faithful holds findings) {lineage : List Entity}
    (parent : String) {grow : Entity → StateM σ Tree} {grown : Entity → Tree}
    (hgrow : ∀ heir, Finds holds (grow heir) (grown heir)) (nominated : List String) :
    Finds holds (descent.collect lineage parent grow nominated)
      ((nominated.filterMap (findings.heir? lineage)).map grown) := by
  induction nominated with
  | nil => exact .pure []
  | cons name nominated ih =>
      rw [collect, List.filterMap_cons]
      refine (hfaithful.finds_heir? lineage parent name).bind ?_
      cases findings.heir? lineage name with
      | none => exact ih
      | some heir => exact (hgrow heir).bind (ih.bind (.pure _))

/-- The counted recursion gives the tree of the findings, cut off at the same depth. -/
theorem finds_growTo (hfaithful : descent.Faithful holds findings) (depth : Nat)
    (ancestors : List Entity) (entity : Entity) :
    Finds holds (descent.growTo depth ancestors entity)
      (findings.tree depth ancestors entity) := by
  induction depth generalizing ancestors entity with
  | zero =>
      rw [growTo, Findings.tree]
      exact (hfaithful.tags entity).bind (.pure _)
  | succ depth ih =>
      rw [growTo, Findings.tree, Findings.heirs]
      refine (hfaithful.tags entity).bind ?_
      refine (hfaithful.nominated entity.name).bind ?_
      exact (hfaithful.finds_collect entity.name (ih (entity :: ancestors)) _).bind (.pure _)

theorem finds_hierarchyTo (hfaithful : descent.Faithful holds findings) (depth : Nat)
    (root : String) :
    Finds holds (descent.hierarchyTo depth root) (findings.hierarchy depth root) := by
  rw [hierarchyTo, Findings.hierarchy]
  refine (hfaithful.finds_root? root).bind ?_
  cases findings.place root with
  | none => exact .pure none
  | some path => exact (hfaithful.finds_growTo depth [] ⟨root, path⟩).bind (.pure _)

/-! ## The count is never used up -/

theorem growsAll_collect (hfaithful : descent.Faithful holds findings) {lineage : List Entity}
    (parent : String) {grow : Entity → StateM σ Tree} {grown : Entity → Tree}
    (hfinds : ∀ heir, Finds holds (grow heir) (grown heir)) {nominated : List String}
    (hgrows : ∀ name ∈ nominated, ∀ heir ∈ findings.heir? lineage name, ∀ state, holds state →
      descent.Grows lineage heir state ((grow heir).run state).1 ((grow heir).run state).2)
    (state : σ) (hstate : holds state) :
    descent.GrowsAll lineage parent nominated state
      ((descent.collect lineage parent grow nominated).run state).1
      ((descent.collect lineage parent grow nominated).run state).2 := by
  induction nominated generalizing state with
  | nil => exact .nil
  | cons name nominated ih =>
      have ih' := ih fun other hother => hgrows other (List.mem_cons_of_mem _ hother)
      obtain ⟨hanswer, hlocated⟩ := hfaithful.finds_heir? lineage parent name state hstate
      rw [collect, run_bind]
      cases hheir : ((descent.heir? lineage parent name).run state).1 with
      | none =>
          refine .pass (Prod.ext hheir rfl) ?_
          exact ih' _ hlocated
      | some heir =>
          have hgrown := (hfinds heir _ hlocated).2
          refine .cons (Prod.ext hheir rfl) ?_ (ih' _ hgrown)
          exact hgrows name List.mem_cons_self heir (hanswer.symm.trans hheir) _ hlocated

/-- On the way down there is less and less room.  As long as the count exceeds it, the recursion
without a count ends, with the same tree and in the same state. -/
theorem grows_growTo (hfaithful : descent.Faithful holds findings)
    (hnames : ∀ parent, ∀ name ∈ findings.nominated parent, name ∈ names)
    {depth : Nat} {ancestors : List Entity} {entity : Entity}
    (hplaced : findings.Placed (entity :: ancestors))
    (hroom : Findings.room names (entity :: ancestors) < depth)
    {state : σ} (hstate : holds state) :
    descent.Grows ancestors entity state
      ((descent.growTo depth ancestors entity).run state).1
      ((descent.growTo depth ancestors entity).run state).2 := by
  induction depth generalizing ancestors entity state with
  | zero => exact absurd hroom (Nat.not_lt_zero _)
  | succ depth ih =>
      obtain ⟨-, htagged⟩ := hfaithful.tags entity state hstate
      obtain ⟨hnominated, hlisted⟩ := hfaithful.nominated entity.name _ htagged
      have hheirs : ∀ name ∈ findings.nominated entity.name,
          ∀ heir ∈ findings.heir? (entity :: ancestors) name, ∀ between, holds between →
          descent.Grows (entity :: ancestors) heir between
            ((descent.growTo depth (entity :: ancestors) heir).run between).1
            ((descent.growTo depth (entity :: ancestors) heir).run between).2 := by
        intro name hname heir hheir between hbetween
        have hmem : heir ∈ findings.heirs (entity :: ancestors) entity.name :=
          List.mem_filterMap.mpr ⟨name, hname, hheir⟩
        have hless := Findings.room_heir_lt hplaced hnames hmem
        exact ih (hplaced.cons_heir hmem) (by omega) hbetween
      rw [← hnominated] at hheirs
      have hchildren := hfaithful.growsAll_collect entity.name
        (hfaithful.finds_growTo depth (entity :: ancestors)) hheirs _ hlisted
      exact .node rfl rfl hchildren

/-- The search for the root ends as well, and the recursion below it. -/
theorem builds_hierarchyTo (hfaithful : descent.Faithful holds findings)
    (hnames : ∀ parent, ∀ name ∈ findings.nominated parent, name ∈ names) (root : String)
    {state : σ} (hstate : holds state) :
    descent.Builds root state
      ((descent.hierarchyTo (names.length + 1) root).run state).1
      ((descent.hierarchyTo (names.length + 1) root).run state).2 := by
  obtain ⟨hanswer, hlocated⟩ := hfaithful.finds_root? root state hstate
  rw [hierarchyTo, run_bind]
  cases hroot : ((descent.root? root).run state).1 with
  | none => exact .missing (Prod.ext hroot rfl)
  | some entity =>
      rw [hroot] at hanswer
      obtain ⟨path, hplace, rfl⟩ := Option.map_eq_some_iff.mp hanswer.symm
      refine .found (Prod.ext hroot rfl) ?_
      exact hfaithful.grows_growTo hnames (.singleton hplace)
        (Findings.room_lt_length_succ _ _) hlocated

end Faithful

end Descent

end Lineage
