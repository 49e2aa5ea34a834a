import Lineage.Proofs.Hierarchy.Building
import Lineage.Proofs.Scan.Evidence

/-!
# Queries to an index

An index answers queries about a project, one after the other, over one memory.  Every query
reads in its own order, some reads fail on the way, and what was read stays in the memory for the
queries that follow.  As long as the store stays as it is, none of this can be told from the
answers: each is the one that a new index would give.

Files may also be named by whoever asks, and need not be files of the project.  Their paths may be
such as cannot be looked up at all; this ends the query, while any other file that cannot be read
is passed over.

## Main results

* `readGiven_eq`: for files of the project this is how the project reads them.
* `Query.steady_ask`: asking leaves the texts in sight as they are, and they determine the answer.
* `replies_eq_map`: queries to one index get the replies that a new index gives to each of them.
-/

namespace Lineage

/-! ## Files that are named from outside -/

namespace Project

variable {project : Project}

/-- Reads given files one after the other, up to one whose path cannot be looked up. -/
def readGiven (project : Project) :
    List SourceFile → Scan (Except ReadFailure (List (SourceFile × String)))
  | [] => return .ok []
  | file :: files => do
      match ← project.read file.path with
      | .ok text =>
          let others ← project.readGiven files
          return others.map ((file, text) :: ·)
      | .error failure =>
          if failure.error = .nullCharacter then return .error failure
          else
            note (.skippedFile failure)
            project.readGiven files

theorem composed_readGiven (files : List SourceFile) :
    Composed project (project.readGiven files) := by
  induction files with
  | nil => exact .pure _
  | cons file files ih =>
      refine (Composed.read file.path).bind fun outcome => ?_
      cases outcome with
      | ok text => exact ih.bind fun _ => .pure _
      | error failure =>
          dsimp only
          split
          · exact .pure _
          · exact (composed_note _).bind fun _ => ih

/-- Files that are there have paths that can be looked up, so none of them ends the reading. -/
theorem readGiven_eq {files : List SourceFile}
    (h : ∀ file ∈ files, project.store.isFile file.path = .ok true) :
    project.readGiven files = (do return .ok (← project.readAll files)) := by
  induction files with
  | nil => rfl
  | cons file files ih =>
      have hothers := ih fun other hother => h other (List.mem_cons_of_mem _ hother)
      funext memory
      show (project.readGiven (file :: files)).run memory = StateT.run _ memory
      rw [readGiven, readAll, Scan.run_bind, bind_assoc, Scan.run_bind, run_read]
      cases hread : project.view memory file.path with
      | ok text =>
          dsimp only
          rw [hothers]
          rfl
      | error failure =>
          have hdenied := eq_denied_of_isFile (h file List.mem_cons_self) hread
          have hknown : failure.error ≠ .nullCharacter := by
            rw [hdenied]
            intro hsame
            cases hsame
          dsimp only
          rw [if_neg hknown, hothers]
          rfl

end Project

/-! ## Queries -/

/-- What an index can be asked. -/
inductive Query where
  | list (extensions : List String) (folder : Option String)
  | read (path : Path)
  | readEach (files : List SourceFile)
  | locate (name : String)
  | folderEntities (folder : String)
  | children (rules : List ChildRule) (parent : String)
  /-- For the tags of an entity in a file. -/
  | tagsAt (name : String) (file : Path)
  /-- For the tags in all markup. -/
  | tags
  | hierarchy (root : String)

namespace Query

/-- What the answer to a query can be. -/
def Answer : Query → Type
  | list .. => List SourceFile
  | read _ => Except ReadFailure String
  | readEach _ => Except ReadFailure (List (SourceFile × String))
  | locate _ => Option Path
  | folderEntities _ => List Entity
  | children .. => List Entity
  | tagsAt .. => Except ReadFailure (List TagUsage)
  | tags => List TagUsage
  | hierarchy _ => Option Tree

/-- The answer to a query. -/
def answer (project : Project) : (query : Query) → Scan query.Answer
  | list extensions folder => project.listFiles extensions folder
  | read path => project.read path
  | readEach files => project.readGiven files
  | locate name => project.locate name
  | folderEntities folder => project.folderEntities folder
  | children rules parent => project.children rules parent
  | tagsAt name file => project.tagsAt name file
  | tags => project.tags
  | hierarchy root => project.hierarchy root

/-- A query for which files are listed; there is nothing to list for the empty name. -/
def lists : Query → Bool
  | list .. | folderEntities _ | tags => true
  | locate name | children _ name | hierarchy name => !name.isEmpty
  | read _ | readEach _ | tagsAt .. => false

/-- Asks an index, which refuses a query that it would have to list an inaccessible root for. -/
def ask (project : Project) (query : Query) : Scan (Except AccessError query.Answer) :=
  match if query.lists then project.rootFault? else none with
  | some error => return .error error
  | none => do return .ok (← query.answer project)

variable {project : Project}

theorem steady_answer (query : Query) : Steady project (query.answer project) := by
  cases query with
  | list extensions folder => exact (Project.composed_listFiles extensions folder).steady
  | read path => exact Project.steady_read path
  | readEach files => exact (Project.composed_readGiven files).steady
  | locate name => exact Project.steady_locate name
  | folderEntities folder => exact (Project.composed_folderEntities folder).steady
  | children rules parent => exact Project.steady_children rules parent
  | tagsAt name file => exact (Project.composed_tagsAt name file).steady
  | tags => exact Project.composed_tags.steady
  | hierarchy root => exact Project.steady_hierarchy root

theorem steady_ask (query : Query) : Steady project (query.ask project) := by
  rw [ask]
  split
  · exact .pure _
  · exact (steady_answer query).bind fun _ => .pure _

end Query

theorem Project.rootFault?_eq_some_iff {project : Project} {fault : AccessError} :
    project.rootFault? = some fault ↔
      project.store.access project.root = .error .tooLong ∧ fault = .tooLong := by
  rw [rootFault?]
  split
  · next hlong => simp [hlong, eq_comm]
  · next hshort =>
      constructor
      · intro h
        cases h
      · rintro ⟨hlong, -⟩
        exact absurd hlong hshort

theorem Project.rootFault?_congr {project other : Project}
    (h : other.store.access other.root = .error .tooLong ↔
      project.store.access project.root = .error .tooLong) :
    other.rootFault? = project.rootFault? := by
  refine Option.ext fun fault => ?_
  rw [rootFault?_eq_some_iff, rootFault?_eq_some_iff, h]

/-- Unless the root is too long a path, a query is answered. -/
theorem Query.answer_ask (query : Query) {project : Project} (hroot : project.rootFault? = none)
    (memory : Memory) :
    ((query.ask project).run memory).1 = .ok ((query.answer project).run memory).1 := by
  rw [ask, hroot, ite_self]
  rfl

/-- Over two projects whose roots are alike, what decides the reply is the answer. -/
theorem Query.ask_eq_of_answer_eq (query : Query) {project other : Project} {memory : Memory}
    (hroot : other.rootFault? = project.rootFault?)
    (hanswer : ((query.answer other).run memory).1 = ((query.answer project).run memory).1) :
    ((query.ask other).run memory).1 = ((query.ask project).run memory).1 := by
  rw [ask, ask, hroot]
  split
  · rfl
  · exact congrArg Except.ok hanswer

/-! ## Many queries -/

/-- A query and what the index replies to it. -/
abbrev Reply := (query : Query) × Except AccessError query.Answer

/-- The replies of one index to queries, one after the other. -/
def replies (project : Project) : List Query → Scan (List Reply)
  | [] => return []
  | query :: queries => do
      let reply ← query.ask project
      let others ← replies project queries
      return ⟨query, reply⟩ :: others

/-- Whatever an index has been asked before, if the same texts are in sight as with a memory from
the start, then it replies as it would have done at the start. -/
theorem replies_eq_map_of_view_eq {project : Project} {start : Memory} (queries : List Query)
    (memory : Memory) (hview : project.view memory = project.view start) :
    ((replies project queries).run memory).1 =
      queries.map fun query => ⟨query, ((query.ask project).run start).1⟩ := by
  induction queries generalizing memory with
  | nil => rfl
  | cons query queries ih =>
      have hsteady : Steady project (query.ask project) := query.steady_ask
      have hafter : project.view ((query.ask project).run memory).2 = project.view start :=
        (hsteady.view_run memory).trans hview
      rw [replies, Scan.run_bind, Scan.run_bind, List.map_cons, ← ih _ hafter,
        ← hsteady.answer_eq _ _ hview]
      rfl

/-- The memory of an index is transparent: each of any queries to one index gets the reply that a
new index over the same store gives to it, also where reads fail. -/
theorem replies_eq_map (project : Project) (queries : List Query) :
    ((replies project queries).run {}).1 =
      queries.map fun query => ⟨query, ((query.ask project).run {}).1⟩ :=
  replies_eq_map_of_view_eq queries {} rfl

end Lineage
