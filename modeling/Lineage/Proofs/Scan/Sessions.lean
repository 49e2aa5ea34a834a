import Lineage.Proofs.Scan.Records
import Lineage.Proofs.Scan.Queries

/-!
# Sessions over one index

An index stays in use while the project changes under it: between two queries files are written or
removed, and reads that failed come to succeed or the other way round.  What the index remembers
does not follow these changes.  Once a read of a path has succeeded, whatever query it was made
for, every later read of the path gives the same text; and a read that fails is forgotten, so that
the next one goes to the store again.

The reads of a session are those of its queries, one after the other.  That the records of one
query are chained to those of the next, whatever became of the store in between, is what carries
this from one query to a whole session.

## Main results

* `Query.exists_makesReads`: the reads that are made for a query.
* `Index.Records.chained`: the reads of a session start from the texts that the ones before left.
* `reads_of_session`: reads of one path at different times of a session.
-/

namespace Lineage

/-! ## Reads for a query -/

variable {project : Project}

/-- A build looks at what is remembered to see how deep it can go, and then it makes its reads. -/
theorem Project.exists_makesReads_hierarchy (root : String) (memory : Memory) :
    ∃ reads, MakesReads project (project.hierarchy root) memory reads := by
  let depth (memory : Memory) : Nat := (project.nominableNames memory).length + 1
  let build (memory : Memory) : Scan (Option Tree) := do
    return (← (project.growRoot (depth memory) root).run {}).1
  have hbuild : project.hierarchy root = get >>= build := rfl
  have hcomposed : Composed project (build memory) :=
    (composed_growRoot (depth memory) root {}).bind fun result => .pure result.1
  obtain ⟨reads, hreads⟩ := hcomposed.exists_makesReads memory
  rw [hbuild]
  exact ⟨reads, .inspect hreads⟩

theorem Query.exists_makesReads_answer (project : Project) (query : Query)
    (memory : Memory) :
    ∃ reads, MakesReads project (query.answer project) memory reads := by
  cases query with
  | list extensions folder =>
      exact (Project.composed_listFiles extensions folder).exists_makesReads memory
  | read path => exact (Composed.read path).exists_makesReads memory
  | readEach files => exact (Project.composed_readGiven files).exists_makesReads memory
  | locate name => exact (Project.composed_locate name).exists_makesReads memory
  | folderEntities folder =>
      exact (Project.composed_folderEntities folder).exists_makesReads memory
  | children rules parent => exact (Project.composed_children rules parent).exists_makesReads memory
  | tagsAt name file => exact (Project.composed_tagsAt name file).exists_makesReads memory
  | tags => exact Project.composed_tags.exists_makesReads memory
  | hierarchy root => exact Project.exists_makesReads_hierarchy root memory

theorem Query.exists_makesReads (project : Project) (query : Query) (memory : Memory) :
    ∃ reads, MakesReads project (query.ask project) memory reads := by
  rw [ask]
  split
  · exact ⟨[], .pure _ memory⟩
  · obtain ⟨reads, hreads⟩ := query.exists_makesReads_answer project memory
    exact ⟨reads ++ [], hreads.bind (.pure _ _)⟩

/-! ## Sessions -/

/-- An index in use: the project as it is now, and what the index remembers of it. -/
structure Index where
  project : Project
  memory : Memory := {}

/-- What happens in a session. -/
inductive Event where
  /-- Files are written or removed, or other paths are faulty from now on. -/
  | change (change : Store → Store)
  | ask (query : Query)

namespace Index

/-- The index after an event; a change of the files is not noticed by what it remembers. -/
def next (index : Index) : Event → Index
  | .change change =>
      { index with project := { index.project with store := change index.project.store } }
  | .ask query =>
      { index with memory := ((query.ask index.project).run index.memory).2 }

/-- The index after events, one after the other. -/
def after (index : Index) (events : List Event) : Index := events.foldl next index

/-- The reads made in a session, in their order. -/
inductive Records : Index → List Event → List RecordedRead → Prop
  | done (index : Index) : Records index [] []
  | change {index : Index} {change : Store → Store} {events : List Event}
      {reads : List RecordedRead} (hrest : Records (index.next (.change change)) events reads) :
      Records index (.change change :: events) reads
  | ask {index : Index} {query : Query} {events : List Event}
      {reads others : List RecordedRead}
      (hreads : MakesReads index.project (query.ask index.project) index.memory reads)
      (hrest : Records (index.next (.ask query)) events others) :
      Records index (.ask query :: events) (reads ++ others)

theorem exists_records (index : Index) (events : List Event) :
    ∃ reads, index.Records events reads := by
  induction events generalizing index with
  | nil => exact ⟨[], .done index⟩
  | cons event events ih =>
      obtain ⟨others, hothers⟩ := ih (index.next event)
      cases event with
      | change change => exact ⟨others, .change hothers⟩
      | ask query =>
          obtain ⟨reads, hreads⟩ := query.exists_makesReads index.project index.memory
          exact ⟨reads ++ others, .ask hreads hothers⟩

theorem Records.chained {index : Index} {events : List Event} {reads : List RecordedRead}
    (h : index.Records events reads) :
    Chained index.memory.texts reads (index.after events).memory.texts := by
  induction h with
  | done index => exact .nil _
  | change _ ih => exact ih
  | ask hreads _ ih => exact hreads.chained.append ih

end Index

/-- In a session reads of a path are made by whatever queries need its text, and nothing comes to be
remembered but by a read that succeeds.  Once one has succeeded, every later one in the session
succeeds with the same text, and so does a read after its end, however the files and the faults have
changed.  One that has failed leaves the memory as it was, and the next read of the path gives what
the store has then. -/
theorem reads_of_session (index : Index) (events : List Event) :
    (∃ reads, index.Records events reads) ∧
      ∀ reads, index.Records events reads →
        (∀ path text, (index.after events).memory.texts.get? path = some text →
          index.memory.texts.get? path = some text ∨
            ∃ read ∈ reads, read.path = path ∧ read.outcome = .ok text) ∧
        ∀ (before : List RecordedRead) (read : RecordedRead) (after : List RecordedRead),
          reads = before ++ read :: after →
          (∀ text, read.outcome = .ok text →
            (∀ later ∈ after, later.path = read.path → later.outcome = .ok text) ∧
              (((index.after events).project.read read.path).run (index.after events).memory).1 =
                .ok text) ∧
          ∀ failure, read.outcome = .error failure →
            read.after = read.before ∧
              ∀ (between : List RecordedRead) (next : RecordedRead) (rest : List RecordedRead),
                after = between ++ next :: rest → next.path = read.path →
                (∀ other ∈ between, other.path ≠ read.path) →
                next.outcome = next.store.readText next.path := by
  refine ⟨index.exists_records events, fun reads hreads => ?_⟩
  have hchained := hreads.chained
  refine ⟨fun path text hknown => hchained.known_or_read hknown, ?_⟩
  intro before read after hsplit
  rw [hsplit] at hchained
  obtain ⟨texts, -, hfrom⟩ := hchained.exists_of_append
  refine ⟨?_, fun failure herror => hfrom.outcome_of_error herror⟩
  intro text hok
  obtain ⟨hlater, hremembered⟩ := hfrom.outcome_of_ok hok
  exact ⟨hlater, Project.outcome_of_known hremembered⟩

end Lineage
