import Lineage.Proofs.Scan.Answers
import Lineage.Proofs.Scan.Listing

/-!
# Collecting the tags of an entity

The tags of an entity are collected from files of the project.  A file of the project is there, so
a read of it can fail only because the file is faulty, never because its path cannot be looked up;
and the templates beside it are looked up before they are read.  Collecting the tags of an entity
that some file declares is therefore never an error: it gives all of them, or those before a faulty
file.

## Main results

* `isFile_of_locate`: what a name is located in is a file.
* `answer_tagsAt`: the tags of an entity in a file, whatever the name of the entity is.
* `answer_collectTags`, `answer_templateTags_cons`: what they are collected from.
-/

namespace Lineage

namespace Project

variable {project : Project} {memory : Memory}

/-- A file that is there can be read unless it is faulty. -/
theorem eq_denied_of_isFile {path : Path} {failure : ReadFailure}
    (hfile : project.store.isFile path = .ok true)
    (hread : project.view memory path = .error failure) : failure = ⟨path, .denied⟩ := by
  obtain ⟨-, bytes, haccess⟩ := Store.isFile_eq_true_iff.mp hfile
  rw [view, Memory.peek] at hread
  split at hread
  · cases hread
  · rw [Store.readText_of_access haccess] at hread
    split at hread
    · cases hread
      rfl
    · cases hread

/-! ## Files of a project -/

theorem isFile_of_mem_files {extensions : List String} {folder : Option String}
    {file : SourceFile} (h : file ∈ project.files extensions folder) :
    project.store.isFile file.path = .ok true := by
  obtain ⟨path, -, hfile⟩ := List.mem_filterMap.mp h
  obtain ⟨rfl, hthere, -⟩ := sourceFile?_eq_some_iff.mp hfile
  exact hthere

/-- A name is located in a file that is listed. -/
theorem exists_mem_files_of_locate {name : String} {path : Path}
    (h : ((project.locate name).run memory).1 = some path) :
    ∃ extensions, ∃ file ∈ project.files extensions none, file.path = path := by
  rw [answer_locate] at h
  split at h
  · cases h
  · obtain ⟨file, hfound, rfl⟩ := Option.map_eq_some_iff.mp h
    have hmem := List.mem_of_find?_eq_some hfound
    rcases List.mem_append.mp hmem with hlogic | hmarkup
    · exact ⟨_, file, hlogic, rfl⟩
    · exact ⟨_, file, hmarkup, rfl⟩

theorem isFile_of_locate {name : String} {path : Path}
    (h : ((project.locate name).run memory).1 = some path) :
    project.store.isFile path = .ok true := by
  obtain ⟨extensions, file, hfile, rfl⟩ := exists_mem_files_of_locate h
  exact isFile_of_mem_files hfile

theorem isFile_of_mem_onlyFiles {store : Store} {paths found : List Path}
    (h : onlyFiles store paths = .ok found) : ∀ path ∈ found, store.isFile path = .ok true := by
  induction paths generalizing found with
  | nil =>
      cases h
      simp
  | cons path paths ih =>
      rw [onlyFiles] at h
      split at h
      · cases h
      · next there hthere =>
          split at h
          · cases h
          · next others hothers =>
              cases h
              intro other hother
              cases there with
              | false => exact ih hothers other hother
              | true =>
                  rcases List.mem_cons.mp hother with rfl | hother
                  · exact hthere
                  · exact ih hothers other hother

theorem sublist_of_onlyFiles {store : Store} {paths found : List Path}
    (h : onlyFiles store paths = .ok found) : found.Sublist paths := by
  induction paths generalizing found with
  | nil =>
      cases h
      exact .slnil
  | cons path paths ih =>
      rw [onlyFiles] at h
      split at h
      · cases h
      · next there _ =>
          split at h
          · cases h
          · next others hothers =>
              cases h
              cases there with
              | false => exact (ih hothers).cons path
              | true => exact (ih hothers).cons_cons path

theorem eq_unknownTemplate_of_onlyFiles {store : Store} {paths : List Path} {error : TagScanError}
    (h : onlyFiles store paths = .error error) :
    ∃ path reason, error = .unknownTemplate path reason := by
  induction paths with
  | nil => cases h
  | cons path paths ih =>
      rw [onlyFiles] at h
      split at h
      · next reason _ =>
          cases h
          exact ⟨path, reason, rfl⟩
      · split at h
        · next others hothers =>
            cases h
            exact ih hothers
        · cases h

/-! ## Errors on the way -/

/-- What ends a collection of tags from files that are there: that it cannot be told of a template
whether it is one, or that a file is faulty. -/
def IsExpected (error : TagScanError) : Prop :=
  (∃ path reason, error = .unknownTemplate path reason) ∨
    ∃ path, error = .unreadable ⟨path, .denied⟩

theorem isExpected_of_tagsIn {path : Path} {find : String → List TagUsage} {error : TagScanError}
    (hfile : project.store.isFile path = .ok true)
    (h : ((project.tagsIn path find).run memory).1.error = some error) : IsExpected error := by
  rw [tagsIn, Scan.run_bind, run_read] at h
  cases hread : project.view memory path with
  | ok text =>
      rw [hread] at h
      cases h
  | error failure =>
      rw [hread] at h
      cases h
      exact .inr ⟨path, by rw [eq_denied_of_isFile hfile hread]⟩

theorem isExpected_of_templateTags {templates : List Path} {error : TagScanError}
    (hfiles : ∀ path ∈ templates, project.store.isFile path = .ok true)
    (h : ((project.templateTags templates).run memory).1.error = some error) :
    IsExpected error := by
  induction templates generalizing memory with
  | nil => cases h
  | cons path templates ih =>
      have hpath := hfiles path List.mem_cons_self
      have hothers := fun other hother => hfiles other (List.mem_cons_of_mem _ hother)
      rw [templateTags, Scan.run_bind] at h
      split at h
      · exact isExpected_of_tagsIn hpath h
      · exact ih hothers h

theorem isExpected_of_collectTags {file : Path} {error : TagScanError}
    (hfile : project.store.isFile file = .ok true)
    (h : ((project.collectTags file).run memory).1.error = some error) : IsExpected error := by
  rw [collectTags] at h
  split at h
  · next failure htemplates =>
      cases h
      exact .inl (eq_unknownTemplate_of_onlyFiles htemplates)
  · next templates htemplates =>
      have hfiles := isFile_of_mem_onlyFiles htemplates
      rw [Scan.run_bind] at h
      split at h
      · exact isExpected_of_templateTags hfiles h
      · rw [Scan.run_bind, importTags] at h
        split at h
        · exact isExpected_of_tagsIn hfile h
        · cases h

/-! ## Tags of an entity -/

/-- The tags of an entity in a file that is there are those collected from the file, as far as that
goes, whatever the name of the entity is. -/
theorem answer_tagsAt {file : Path} (hfile : project.store.isFile file = .ok true)
    (name : String) (memory : Memory) :
    ((project.tagsAt name file).run memory).1 =
      .ok ((project.collectTags file).run memory).1.tags := by
  rw [tagsAt, Scan.run_bind]
  split
  · next path hnull =>
      rcases isExpected_of_collectTags hfile hnull with ⟨_, _, h⟩ | ⟨_, h⟩ <;> cases h
  · rfl
  · rfl

theorem answer_entityTags {file : Path} (hfile : project.store.isFile file = .ok true)
    (name : String) (memory : Memory) :
    ((project.entityTags name file).run memory).1 =
      ((project.collectTags file).run memory).1.tags := by
  rw [entityTags, Scan.run_bind, answer_tagsAt hfile]
  rfl

/-! ## What is collected -/

@[simp] theorem answer_tagsIn (path : Path) (find : String → List TagUsage) (memory : Memory) :
    ((project.tagsIn path find).run memory).1 =
      match project.view memory path with
      | .ok text => ⟨find text, none⟩
      | .error failure => ⟨[], some (.unreadable failure)⟩ := by
  rw [tagsIn, Scan.run_bind, run_read]
  cases project.view memory path <;> rfl

@[simp] theorem answer_templateTags_cons (path : Path) (templates : List Path) (memory : Memory) :
    ((project.templateTags (path :: templates)).run memory).1 =
      match project.view memory path with
      | .ok text =>
          let others := ((project.templateTags templates).run memory).1
          ⟨TagUsage.inMarkup text project.settings.tagPrefix (some path) ++ others.tags,
            others.error⟩
      | .error failure => ⟨[], some (.unreadable failure)⟩ := by
  have hsteady : Steady project (project.tagsIn path fun text =>
      TagUsage.inMarkup text project.settings.tagPrefix (some path)) :=
    (composed_tagsIn path _).steady
  have hothers := (composed_templateTags templates).steady.answer_eq _ memory
    (hsteady.view_run memory)
  rw [templateTags, Scan.run_bind, answer_tagsIn]
  cases project.view memory path with
  | ok text =>
      dsimp only
      rw [← hothers]
      rfl
  | error failure => rfl

@[simp] theorem answer_collectTags (file : Path) (memory : Memory) :
    ((project.collectTags file).run memory).1 =
      match project.templates file with
      | .ok templates =>
          let fromTemplates := ((project.templateTags templates).run memory).1
          match fromTemplates.error with
          | some _ => fromTemplates
          | none =>
              let fromImports := ((project.importTags file).run memory).1
              ⟨fromTemplates.tags ++ fromImports.tags, fromImports.error⟩
      | .error error => ⟨[], some error⟩ := by
  rw [collectTags]
  cases project.templates file with
  | error error => rfl
  | ok templates =>
      have hsteady : Steady project (project.templateTags templates) :=
        (composed_templateTags templates).steady
      have himports := (composed_importTags file).steady.answer_eq _ memory
        (hsteady.view_run memory)
      dsimp only
      rw [Scan.run_bind, ← himports]
      cases ((project.templateTags templates).run memory).1.error with
      | some error => rfl
      | none => rfl

end Project

end Lineage
