import Lineage.Proofs.Scan.Composed

/-!
# Steady scans

A scan reads texts through its memory, and every read may add to the memory.  What it adds is the
text that the store would have given anyway: the texts in sight, remembered or not, stay the same.
A scan is *steady* if it leaves the texts in sight as they are and its answer depends on nothing
else in the memory.  Steady scans can be run in any order and any number of times without a change
in their answers, which is what every result about looking things up once rests on.

## Main results

* `steady_read`: reading is steady, although it fills the memory.
* `Composed.steady`: so is every scan that is put together from reads.
* `steady_locate`, `steady_children`, `steady_entityTags`: the lookups of a build among them.
-/

namespace Lineage

variable {α β : Type}

/-- The texts in sight: what a read of each path gives under the memory. -/
def Project.view (project : Project) (memory : Memory) : Path → Except ReadFailure String :=
  memory.peek project.store

/-- A scan whose answer is a matter of the texts in sight, and which leaves these as they are. -/
structure Steady (project : Project) (scan : Scan α) : Prop where
  view_run : ∀ memory, project.view (scan.run memory).2 = project.view memory
  answer_eq : ∀ memory other, project.view memory = project.view other →
    (scan.run memory).1 = (scan.run other).1

variable {project : Project}

/-- Two scans one after the other, the second depending on the answer of the first. -/
@[simp] theorem Scan.run_bind (scan : Scan α) (next : α → Scan β) (memory : Memory) :
    (scan >>= next).run memory = (next (scan.run memory).1).run (scan.run memory).2 := rfl

namespace Steady

theorem pure (a : α) : Steady project (Pure.pure a : Scan α) where
  view_run _ := rfl
  answer_eq _ _ _ := rfl

theorem bind {scan : Scan α} {next : α → Scan β} (hscan : Steady project scan)
    (hnext : ∀ a, Steady project (next a)) : Steady project (scan >>= next) where
  view_run memory := by
    rw [Scan.run_bind, (hnext _).view_run, hscan.view_run]
  answer_eq memory other h := by
    have hview : project.view (scan.run memory).2 = project.view (scan.run other).2 := by
      rw [hscan.view_run, hscan.view_run, h]
    rw [Scan.run_bind, Scan.run_bind, hscan.answer_eq memory other h]
    exact (hnext _).answer_eq _ _ hview

/-- A change that keeps the remembered texts is not seen by any read. -/
theorem modify {change : Memory → Memory} (h : ∀ memory, (change memory).texts = memory.texts) :
    Steady project (modify change : Scan Unit) where
  view_run memory := by
    funext path
    show (change memory).peek project.store path = memory.peek project.store path
    rw [Memory.peek, Memory.peek, h memory]
  answer_eq _ _ _ := rfl

end Steady

/-! ## Reading -/

/-- A text that is remembered is in sight just as it was before. -/
theorem Memory.peek_remember (memory : Memory) (store : Store) (path other : Path) :
    (memory.remember path (memory.peek store path)).peek store other =
      memory.peek store other := by
  cases houtcome : memory.peek store path with
  | error failure => rfl
  | ok text => grind [Memory.remember, Memory.peek]

namespace Project

@[simp] theorem run_read (project : Project) (path : Path) (memory : Memory) :
    (project.read path).run memory =
      (project.view memory path, memory.remember path (project.view memory path)) := rfl

theorem steady_read (path : Path) : Steady project (project.read path) where
  view_run memory := by
    funext other
    rw [run_read]
    exact memory.peek_remember project.store path other
  answer_eq memory other h := by
    rw [run_read, run_read, h]

end Project

/-! ## Scans put together from reads -/

theorem Composed.steady {scan : Scan α} (h : Composed project scan) : Steady project scan := by
  induction h with
  | pure a => exact .pure a
  | modify hchange => exact .modify hchange
  | read path => exact Project.steady_read path
  | bind _ _ ihscan ihnext => exact ihscan.bind ihnext

theorem steady_note (notice : Notice) : Steady project (note notice) :=
  (composed_note notice).steady

namespace Project

theorem steady_logicFiles (folder : Option String) : Steady project (project.logicFiles folder) :=
  (composed_logicFiles folder).steady

theorem steady_markupFiles (folder : Option String) :
    Steady project (project.markupFiles folder) :=
  (composed_markupFiles folder).steady

theorem steady_declares (name : String) (file : SourceFile) :
    Steady project (project.declares name file) :=
  (composed_declares name file).steady

theorem steady_firstDeclaring (name : String) (files : List SourceFile) :
    Steady project (project.firstDeclaring name files) :=
  (composed_firstDeclaring name files).steady

theorem steady_locate (name : String) : Steady project (project.locate name) :=
  (composed_locate name).steady

theorem steady_children (rules : List ChildRule) (parent : String) :
    Steady project (project.children rules parent) :=
  (composed_children rules parent).steady

theorem steady_collectTags (file : Path) : Steady project (project.collectTags file) :=
  (composed_collectTags file).steady

theorem steady_entityTags (name : String) (file : Path) :
    Steady project (project.entityTags name file) :=
  (composed_entityTags name file).steady

end Project

end Lineage
