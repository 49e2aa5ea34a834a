import Lineage.Proofs.Scan.Steady

/-!
# Records of reads

The reads that a scan makes do not show in its answer.  Here they are recorded beside it: the store
that was read from, the memory before and after, and what came of the read.  A scan that is put
together from reads makes those of its parts, one after the other, so its records are chained: each
read starts with the texts that the one before has left.  Everything that is said about reads at
different times is said about such chains, whatever stores the reads were made from.

## Main results

* `Composed.exists_makesReads`: the reads of a scan that is put together from reads.
* `MakesReads.chained`: records lead from the texts remembered before a scan to those after it.
* `Chained.known_or_read`: nothing is remembered but what was read.
* `Chained.outcome_of_ok`: in a chain all reads of a path that succeed, and all later ones, give one
  text.
* `Chained.outcome_of_error`: the next read of a path after one that failed is from the store.
-/

namespace Lineage

variable {α β : Type}

/-- A read that was made, and what came of it. -/
structure RecordedRead where
  store : Store
  path : Path
  before : Memory
  outcome : Except ReadFailure String
  after : Memory

/-- The record of a read in a project. -/
def Project.record (project : Project) (path : Path) (memory : Memory) : RecordedRead :=
  let result := (project.read path).run memory
  { store := project.store, path, before := memory, outcome := result.1, after := result.2 }

/-! ## One read -/

namespace Project

variable {project : Project} {path other : Path} {memory : Memory} {text : String}

theorem outcome_of_known (h : memory.texts.get? path = some text) :
    (project.record path memory).outcome = .ok text := by
  show memory.peek project.store path = .ok text
  rw [Memory.peek, h]

theorem outcome_of_unknown (h : memory.texts.get? path = none) :
    (project.record path memory).outcome = project.store.readText path := by
  show memory.peek project.store path = _
  rw [Memory.peek, h]

theorem after_of_error {failure : ReadFailure}
    (h : (project.record path memory).outcome = .error failure) :
    (project.record path memory).after = memory := by
  show memory.remember path (project.record path memory).outcome = memory
  rw [h]
  rfl

theorem after_of_ok (h : (project.record path memory).outcome = .ok text) :
    (project.record path memory).after.texts = memory.texts.set path text := by
  show (memory.remember path (project.record path memory).outcome).texts = _
  rw [h]
  rfl

theorem get?_after_of_ok (h : (project.record path memory).outcome = .ok text) :
    (project.record path memory).after.texts.get? path = some text := by
  simp [after_of_ok h]

/-- Only the path that is read can come to be remembered. -/
theorem get?_after_of_ne (h : path ≠ other) :
    (project.record path memory).after.texts.get? other = memory.texts.get? other := by
  cases houtcome : (project.record path memory).outcome with
  | ok text => simp [after_of_ok houtcome, h]
  | error failure => rw [after_of_error houtcome]

/-- What is remembered stays. -/
theorem get?_after_of_known (h : memory.texts.get? other = some text) :
    (project.record path memory).after.texts.get? other = some text := by
  by_cases hsame : path = other
  · subst hsame
    exact get?_after_of_ok (outcome_of_known h)
  · rw [get?_after_of_ne hsame, h]

theorem unknown_of_error {failure : ReadFailure}
    (h : (project.record path memory).outcome = .error failure) :
    memory.texts.get? path = none := by
  cases hknown : memory.texts.get? path with
  | none => rfl
  | some text =>
      rw [outcome_of_known hknown] at h
      cases h

end Project

/-! ## Reads one after the other -/

/-- Reads made one after the other, with what is remembered before the first and after the last. -/
inductive Chained : Keyed Path String → List RecordedRead → Keyed Path String → Prop
  | nil (texts : Keyed Path String) : Chained texts [] texts
  | cons {project : Project} {path : Path} {memory : Memory} {reads : List RecordedRead}
      {last : Keyed Path String}
      (hrest : Chained (project.record path memory).after.texts reads last) :
      Chained memory.texts (project.record path memory :: reads) last

namespace Chained

variable {first middle last : Keyed Path String} {reads others : List RecordedRead} {path : Path}
  {text : String}

theorem append (h : Chained first reads middle) (hothers : Chained middle others last) :
    Chained first (reads ++ others) last := by
  induction h with
  | nil => exact hothers
  | cons _ ih => exact .cons (ih hothers)

theorem exists_of_append (h : Chained first (reads ++ others) last) :
    ∃ middle, Chained first reads middle ∧ Chained middle others last := by
  induction reads generalizing first with
  | nil => exact ⟨first, .nil first, h⟩
  | cons read reads ih =>
      cases h with
      | cons hrest =>
          obtain ⟨middle, hreads, hothers⟩ := ih hrest
          exact ⟨middle, .cons hreads, hothers⟩

/-- A text that is remembered before some reads is remembered after them. -/
theorem get?_of_known (h : Chained first reads last) (hknown : first.get? path = some text) :
    last.get? path = some text := by
  induction h with
  | nil => exact hknown
  | cons _ ih => exact ih (Project.get?_after_of_known hknown)

/-- A text that is remembered is what every read of its path gives. -/
theorem outcome_of_known (h : Chained first reads last) (hknown : first.get? path = some text) :
    ∀ read ∈ reads, read.path = path → read.outcome = .ok text := by
  induction h with
  | nil => simp
  | @cons project other memory reads last hrest ih =>
      intro read hread hpath
      rcases List.mem_cons.mp hread with rfl | hread
      · have hsame : other = path := hpath
        subst hsame
        exact Project.outcome_of_known hknown
      · exact ih (Project.get?_after_of_known hknown) read hread hpath

/-- What is remembered after some reads was remembered before, or one of them has succeeded. -/
theorem known_or_read (h : Chained first reads last) (hknown : last.get? path = some text) :
    first.get? path = some text ∨ ∃ read ∈ reads, read.path = path ∧ read.outcome = .ok text := by
  induction h with
  | nil => exact .inl hknown
  | @cons project other memory reads last hrest ih =>
      obtain hafter | ⟨read, hread, hpath, hok⟩ := ih hknown
      · by_cases hsame : other = path
        · subst hsame
          cases houtcome : (project.record other memory).outcome with
          | ok found =>
              rw [Project.get?_after_of_ok houtcome] at hafter
              cases hafter
              exact .inr ⟨_, List.mem_cons_self, rfl, houtcome⟩
          | error failure =>
              rw [Project.after_of_error houtcome] at hafter
              exact .inl hafter
        · rw [Project.get?_after_of_ne hsame] at hafter
          exact .inl hafter
      · exact .inr ⟨read, List.mem_cons_of_mem _ hread, hpath, hok⟩

/-- A path that is not remembered and not read is not remembered afterwards. -/
theorem get?_of_unread (h : Chained first reads last) (hunknown : first.get? path = none)
    (hunread : ∀ read ∈ reads, read.path ≠ path) : last.get? path = none := by
  induction h with
  | nil => exact hunknown
  | @cons project other memory reads last hrest ih =>
      have hother : other ≠ path := hunread _ List.mem_cons_self
      refine ih ?_ fun read hread => hunread read (List.mem_cons_of_mem _ hread)
      rw [Project.get?_after_of_ne hother, hunknown]

variable {read : RecordedRead}

/-- After a read that succeeds its text is remembered to the end, and every further read of the path
gives it. -/
theorem outcome_of_ok (h : Chained first (read :: reads) last) (hok : read.outcome = .ok text) :
    (∀ later ∈ reads, later.path = read.path → later.outcome = .ok text) ∧
      last.get? read.path = some text := by
  cases h with
  | cons hrest =>
      have hknown := Project.get?_after_of_ok hok
      exact ⟨hrest.outcome_of_known hknown, hrest.get?_of_known hknown⟩

/-- A read that fails leaves the memory as it was, and the next read of the path is from the store
as it is then. -/
theorem outcome_of_error {failure : ReadFailure} (h : Chained first (read :: reads) last)
    (herror : read.outcome = .error failure) :
    read.after = read.before ∧
      ∀ between next after, reads = between ++ next :: after → next.path = read.path →
        (∀ other ∈ between, other.path ≠ read.path) →
        next.outcome = next.store.readText next.path := by
  cases h with
  | @cons project path memory reads last hrest =>
      have hafter := Project.after_of_error herror
      refine ⟨hafter, ?_⟩
      intro between next after hreads hpath hunread
      have hunknown : (project.record path memory).after.texts.get? path = none := by
        rw [hafter]
        exact Project.unknown_of_error herror
      rw [hreads] at hrest
      obtain ⟨texts, hbetween, hnext⟩ := hrest.exists_of_append
      have hstill := hbetween.get?_of_unread hunknown hunread
      cases hnext with
      | @cons nextProject nextPath nextMemory after last _ =>
          have hsame : nextPath = path := hpath
          subst hsame
          exact Project.outcome_of_unknown hstill

end Chained

/-! ## Reads of a scan -/

/-- A scan that starts with a memory makes reads, one after the other. -/
inductive MakesReads (project : Project) :
    {α : Type} → Scan α → Memory → List RecordedRead → Prop
  | pure {α : Type} (a : α) (memory : Memory) :
      MakesReads project (Pure.pure a : Scan α) memory []
  | modify {change : Memory → Memory} (h : ∀ memory, (change memory).texts = memory.texts)
      (memory : Memory) : MakesReads project (modify change : Scan Unit) memory []
  | read (path : Path) (memory : Memory) :
      MakesReads project (project.read path) memory [project.record path memory]
  | bind {α β : Type} {scan : Scan α} {next : α → Scan β} {memory : Memory}
      {reads others : List RecordedRead} (hscan : MakesReads project scan memory reads)
      (hnext : MakesReads project (next (scan.run memory).1) (scan.run memory).2 others) :
      MakesReads project (scan >>= next) memory (reads ++ others)
  /-- A scan may look at what is remembered without a read. -/
  | inspect {α : Type} {next : Memory → Scan α} {memory : Memory} {reads : List RecordedRead}
      (hnext : MakesReads project (next memory) memory reads) :
      MakesReads project (get >>= next) memory reads

variable {project : Project}

theorem Composed.exists_makesReads {scan : Scan α} (h : Composed project scan) (memory : Memory) :
    ∃ reads, MakesReads project scan memory reads := by
  induction h generalizing memory with
  | pure a => exact ⟨[], .pure a memory⟩
  | modify hchange => exact ⟨[], .modify hchange memory⟩
  | read path => exact ⟨_, .read path memory⟩
  | bind _ _ ihscan ihnext =>
      obtain ⟨reads, hreads⟩ := ihscan memory
      obtain ⟨others, hothers⟩ := ihnext _ _
      exact ⟨reads ++ others, hreads.bind hothers⟩

theorem MakesReads.chained {scan : Scan α} {memory : Memory} {reads : List RecordedRead}
    (h : MakesReads project scan memory reads) :
    Chained memory.texts reads (scan.run memory).2.texts := by
  induction h with
  | pure a memory => exact .nil memory.texts
  | @modify change hchange memory =>
      show Chained memory.texts [] (change memory).texts
      rw [hchange memory]
      exact .nil memory.texts
  | read path memory => exact .cons (.nil _)
  | bind _ _ ihscan ihnext => exact ihscan.append ihnext
  | inspect _ ih => exact ih

end Lineage
