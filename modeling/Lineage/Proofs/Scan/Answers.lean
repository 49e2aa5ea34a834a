import Lineage.Proofs.Scan.Steady

/-!
# What lookups answer

The lookups of a build read file after file through a memory that changes on the way.  Since every
one of these reads is steady, the answer is that of a search through the texts in sight at the
start.

## Main results

* `answer_readAll`: reading files gives those whose text is in sight.
* `answer_firstDeclaring`: a name is located in the first file that declares it.
* `isSome_locate_of_declares`: a name that some file in sight declares is located.
* `mem_children_iff`: what is nominated for a parent, and by which files.
* `answer_folderEntities`: the entities of a folder are those of its files in sight.
* `mem_tags_iff`: which tags a project uses, and where.
* `SeesAlike`: all of this is a matter of the texts that listings show.
-/

namespace Lineage.Project

variable {project : Project} {memory : Memory}

/-- The files whose text is in sight, with their texts. -/
def legible (project : Project) (memory : Memory) (files : List SourceFile) :
    List (SourceFile × String) :=
  files.filterMap fun file =>
    match project.view memory file.path with
    | .ok text => some (file, text)
    | .error _ => none

@[simp, grind =] theorem mem_legible_iff {files : List SourceFile} {file : SourceFile}
    {text : String} :
    (file, text) ∈ project.legible memory files ↔
      file ∈ files ∧ project.view memory file.path = .ok text := by
  rw [legible, List.mem_filterMap]
  constructor
  · rintro ⟨other, hmem, hread⟩
    split at hread
    · next text' htext =>
        cases hread
        exact ⟨hmem, htext⟩
    · cases hread
  · rintro ⟨hmem, htext⟩
    exact ⟨file, hmem, by rw [htext]⟩

theorem legible_congr {other : Memory} (files : List SourceFile)
    (h : project.view memory = project.view other) :
    project.legible memory files = project.legible other files := by
  simp only [legible, h]

@[simp] theorem answer_readAll (files : List SourceFile) (memory : Memory) :
    ((project.readAll files).run memory).1 = project.legible memory files := by
  induction files generalizing memory with
  | nil => rfl
  | cons file files ih =>
      have hview : project.view ((project.read file.path).run memory).2 = project.view memory :=
        (steady_read file.path).view_run memory
      rw [readAll, Scan.run_bind]
      simp only [run_read] at hview ⊢
      rw [legible, List.filterMap_cons, ← legible]
      cases hread : project.view memory file.path with
      | ok text =>
          rw [hread] at hview
          simp only
          rw [Scan.run_bind, ← legible_congr files hview, ← ih]
          rfl
      | error failure =>
          rw [hread] at hview
          simp only
          rw [Scan.run_bind, ih]
          exact legible_congr files (((steady_note _).view_run _).trans hview)

/-! ## Locating -/

theorem answer_firstDeclaring (name : String) (files : List SourceFile) (memory : Memory) :
    ((project.firstDeclaring name files).run memory).1 =
      (files.find? fun file => ((project.declares name file).run memory).1).map
        SourceFile.path := by
  induction files with
  | nil => rfl
  | cons file files ih =>
      rw [firstDeclaring, Scan.run_bind, List.find?_cons]
      have hview : project.view ((project.declares name file).run memory).2 =
          project.view memory := (steady_declares name file).view_run memory
      cases ((project.declares name file).run memory).1 with
      | true => rfl
      | false => exact ((steady_firstDeclaring name files).answer_eq _ _ hview).trans ih

/-- Whether a file declares a name is a matter of its text, or of its own name if it is markup. -/
@[simp] theorem answer_declares (name : String) (file : SourceFile) (memory : Memory) :
    ((project.declares name file).run memory).1 =
      match file.kind with
      | .markup => isNamedLike file.path name
      | .logic =>
          match project.view memory file.path with
          | .ok text => Lexical.Declaration.declares text name
          | .error _ => false := by
  rw [declares]
  cases file.kind with
  | markup => rfl
  | logic =>
      simp only
      rw [Scan.run_bind, run_read]
      cases project.view memory file.path <;> rfl

theorem answer_declares_logic {file : SourceFile} {text : String} (name : String)
    (hkind : file.kind = .logic) (htext : project.view memory file.path = .ok text) :
    ((project.declares name file).run memory).1 = Lexical.Declaration.declares text name := by
  rw [answer_declares, hkind]
  simp only
  rw [htext]

@[simp] theorem answer_locate (name : String) (memory : Memory) :
    ((project.locate name).run memory).1 =
      if name.isEmpty then none
      else
        ((project.files project.settings.logicExtensions none ++
            project.files project.settings.markupExtensions none).find? fun file =>
          ((project.declares name file).run memory).1).map SourceFile.path := by
  rw [locate]
  split
  · rfl
  · rw [← answer_firstDeclaring]
    -- The listings only give notices; the search answers, and one more notice follows.
    have hview : project.view ((project.markupFiles).run ((project.logicFiles).run memory).2).2 =
        project.view memory :=
      ((steady_markupFiles none).view_run _).trans ((steady_logicFiles none).view_run memory)
    have hsearch := (steady_firstDeclaring name (project.files project.settings.logicExtensions none
      ++ project.files project.settings.markupExtensions none)).answer_eq _ _ hview
    rw [Scan.run_bind, Scan.run_bind, Scan.run_bind, ← hsearch]
    split
    · next path hfound => exact hfound.symm
    · next hfound => exact hfound.symm

/-- Nothing is located under the empty name. -/
theorem not_isEmpty_of_locate {name : String} {path : Path}
    (h : ((project.locate name).run memory).1 = some path) : name.isEmpty = false := by
  rw [Bool.eq_false_iff]
  intro hempty
  rw [answer_locate, if_pos hempty] at h
  cases h

theorem isSome_locate_of_declares {file : SourceFile} {name text : String}
    (hfile : file ∈ project.files project.settings.logicExtensions none)
    (hkind : file.kind = .logic) (htext : project.view memory file.path = .ok text)
    (hne : name.isEmpty = false) (hdeclares : Lexical.Declaration.declares text name = true) :
    ((project.locate name).run memory).1.isSome = true := by
  rw [answer_locate, hne, if_neg (by decide), Option.isSome_map, List.find?_isSome]
  refine ⟨file, List.mem_append_left _ hfile, ?_⟩
  rw [answer_declares_logic name hkind htext, hdeclares]

/-! ## Nominating -/

@[simp] theorem answer_children (rules : List ChildRule) (parent : String) (memory : Memory) :
    ((project.children rules parent).run memory).1 =
      if parent.isEmpty then []
      else
        (project.legible memory (project.files project.settings.logicExtensions none)).flatMap
          fun (file, text) => nominees rules parent file.path text := by
  rw [children]
  split
  · rfl
  · have hview : project.view ((project.logicFiles).run memory).2 = project.view memory :=
      (steady_logicFiles none).view_run memory
    rw [← legible_congr _ hview, ← answer_readAll]
    rfl

theorem mem_children_iff {rules : List ChildRule} {parent : String} {entity : Entity} :
    entity ∈ ((project.children rules parent).run memory).1 ↔
      parent.isEmpty = false ∧ ∃ file text,
        file ∈ project.files project.settings.logicExtensions none ∧
        project.view memory file.path = .ok text ∧
        entity ∈ nominees rules parent file.path text := by
  rw [answer_children]
  cases parent.isEmpty with
  | true => simp
  | false => simp [and_assoc]

/-! ## Entities of a folder -/

@[simp] theorem answer_folderEntities (folder : String) (memory : Memory) :
    ((project.folderEntities folder).run memory).1 =
      firstsBy id ((project.legible memory
        (project.files project.settings.allExtensions (some folder))).flatMap
          fun (file, text) => entitiesOf project.settings.tagPrefix file text) := by
  have hview : project.view ((project.allFiles (some folder)).run memory).2 =
      project.view memory := (composed_allFiles (some folder)).steady.view_run memory
  rw [← legible_congr _ hview, ← answer_readAll, folderEntities, Scan.run_bind, Scan.run_bind]
  dsimp only
  split <;> rfl

/-! ## Tags of a project -/

@[simp] theorem answer_tags (memory : Memory) :
    ((project.tags).run memory).1 =
      (project.legible memory (project.files project.settings.markupExtensions none)).flatMap
        fun (file, text) =>
          TagUsage.inMarkup text project.settings.tagPrefix (some file.path) := by
  have hview : project.view ((project.markupFiles).run memory).2 = project.view memory :=
    (steady_markupFiles none).view_run memory
  rw [← legible_congr _ hview, ← answer_readAll, tags, Scan.run_bind, Scan.run_bind]
  dsimp only
  split <;> rfl

theorem mem_tags_iff {usage : TagUsage} :
    usage ∈ ((project.tags).run memory).1 ↔
      ∃ file text, file ∈ project.files project.settings.markupExtensions none ∧
        project.view memory file.path = .ok text ∧
        usage ∈ TagUsage.inMarkup text project.settings.tagPrefix (some file.path) := by
  simp [and_assoc]

/-! ## The same texts in two projects -/

/-- The projects have the same settings, and every listing shows the same texts in both. -/
structure SeesAlike (project other : Project) (memory : Memory) : Prop where
  settings_eq : other.settings = project.settings
  legible_eq : ∀ extensions folder,
    other.legible memory (other.files extensions folder) =
      project.legible memory (project.files extensions folder)

namespace SeesAlike

variable {other : Project} (h : project.SeesAlike other memory)
include h

theorem answer_children (rules : List ChildRule) (parent : String) :
    ((other.children rules parent).run memory).1 =
      ((project.children rules parent).run memory).1 := by
  rw [Project.answer_children, Project.answer_children, h.settings_eq, h.legible_eq]

theorem answer_folderEntities (folder : String) :
    ((other.folderEntities folder).run memory).1 =
      ((project.folderEntities folder).run memory).1 := by
  rw [Project.answer_folderEntities, Project.answer_folderEntities, h.settings_eq, h.legible_eq]

theorem answer_tags : (other.tags.run memory).1 = (project.tags.run memory).1 := by
  rw [Project.answer_tags, Project.answer_tags, h.settings_eq, h.legible_eq]

end SeesAlike

end Lineage.Project
