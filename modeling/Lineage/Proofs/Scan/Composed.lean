import Lineage.Evidence
import Lineage.Locate
import Lineage.Relation

/-!
# What scans are made of

Everything that looks at a project is put together from reads of single files and from changes
that leave the remembered texts alone, such as notices.  So whatever holds of a read and of such a
change, and goes over from two scans to one after the other, holds of every one of them; the scans
need not be taken apart again for each such property.

## Main results

* `composed_locate`, `composed_children`, `composed_entityTags`: the lookups of a build.
* `composed_folderEntities`, `composed_tags`: the listings of a folder and of all tags.
-/

namespace Lineage

/-- A scan that is put together from reads, and from changes that keep the remembered texts. -/
inductive Composed (project : Project) : {α : Type} → Scan α → Prop
  | pure {α : Type} (a : α) : Composed project (Pure.pure a : Scan α)
  | modify {change : Memory → Memory} (h : ∀ memory, (change memory).texts = memory.texts) :
      Composed project (modify change : Scan Unit)
  | read (path : Path) : Composed project (project.read path)
  | bind {α β : Type} {scan : Scan α} {next : α → Scan β} (hscan : Composed project scan)
      (hnext : ∀ a, Composed project (next a)) : Composed project (scan >>= next)

variable {project : Project}

theorem composed_note (notice : Notice) : Composed project (note notice) :=
  .modify fun _ => rfl

theorem composed_noteAll (notices : List Notice) : Composed project (noteAll notices) :=
  .modify fun _ => rfl

namespace Project

/-! ## Listing and reading -/

theorem composed_listFiles (extensions : List String) (folder : Option String) :
    Composed project (project.listFiles extensions folder) :=
  (composed_noteAll _).bind fun _ => .pure _

theorem composed_logicFiles (folder : Option String) :
    Composed project (project.logicFiles folder) :=
  composed_listFiles _ _

theorem composed_markupFiles (folder : Option String) :
    Composed project (project.markupFiles folder) :=
  composed_listFiles _ _

theorem composed_allFiles (folder : Option String) : Composed project (project.allFiles folder) :=
  composed_listFiles _ _

theorem composed_readAll (files : List SourceFile) : Composed project (project.readAll files) := by
  induction files with
  | nil => exact .pure []
  | cons file files ih =>
      refine (Composed.read file.path).bind fun outcome => ?_
      cases outcome with
      | ok text => exact ih.bind fun _ => .pure _
      | error failure => exact (composed_note _).bind fun _ => ih

/-! ## Looking up names -/

theorem composed_declares (name : String) (file : SourceFile) :
    Composed project (project.declares name file) := by
  rw [declares]
  split
  · exact .pure _
  · refine (Composed.read file.path).bind fun outcome => ?_
    cases outcome with
    | ok text => exact .pure _
    | error failure => exact (composed_note _).bind fun _ => .pure false

theorem composed_firstDeclaring (name : String) (files : List SourceFile) :
    Composed project (project.firstDeclaring name files) := by
  induction files with
  | nil => exact .pure none
  | cons file files ih =>
      refine (composed_declares name file).bind fun declared => ?_
      cases declared with
      | true => exact .pure _
      | false => exact ih

theorem composed_locate (name : String) : Composed project (project.locate name) := by
  rw [locate]
  split
  · exact .pure none
  · refine (composed_logicFiles none).bind fun logic => ?_
    refine (composed_markupFiles none).bind fun markup => ?_
    refine (composed_firstDeclaring name (logic ++ markup)).bind fun found => ?_
    cases found with
    | some path => exact (composed_note _).bind fun _ => .pure _
    | none => exact (composed_note _).bind fun _ => .pure none

theorem composed_folderEntities (folder : String) :
    Composed project (project.folderEntities folder) := by
  refine (composed_allFiles (some folder)).bind fun files => ?_
  refine (composed_readAll files).bind fun texts => ?_
  dsimp only
  split
  · exact (composed_note _).bind fun _ => .pure _
  · exact .pure _

theorem composed_children (rules : List ChildRule) (parent : String) :
    Composed project (project.children rules parent) := by
  rw [children]
  split
  · exact .pure []
  · refine (composed_logicFiles none).bind fun files => ?_
    refine (composed_readAll files).bind fun texts => ?_
    exact (composed_note _).bind fun _ => .pure _

/-! ## Collecting tags -/

theorem composed_tagsIn (path : Path) (find : String → List TagUsage) :
    Composed project (project.tagsIn path find) := by
  refine (Composed.read path).bind fun outcome => ?_
  cases outcome with
  | ok text => exact .pure _
  | error failure => exact .pure _

theorem composed_templateTags (templates : List Path) :
    Composed project (project.templateTags templates) := by
  induction templates with
  | nil => exact .pure _
  | cons path templates ih =>
      refine (composed_tagsIn path _).bind fun first => ?_
      cases first.error with
      | some error => exact .pure first
      | none => exact ih.bind fun _ => .pure _

theorem composed_importTags (file : Path) : Composed project (project.importTags file) := by
  rw [importTags]
  split
  · exact composed_tagsIn file _
  · exact .pure _

theorem composed_collectTags (file : Path) : Composed project (project.collectTags file) := by
  rw [collectTags]
  split
  · exact .pure _
  · refine (composed_templateTags _).bind fun fromTemplates => ?_
    cases fromTemplates.error with
    | some error => exact .pure fromTemplates
    | none => exact (composed_importTags file).bind fun _ => .pure _

theorem composed_tagsAt (name : String) (file : Path) :
    Composed project (project.tagsAt name file) := by
  refine (composed_collectTags file).bind fun found => ?_
  split
  · exact .pure _
  · exact (composed_note _).bind fun _ => .pure _
  · exact .pure _

theorem composed_entityTags (name : String) (file : Path) :
    Composed project (project.entityTags name file) := by
  refine (composed_tagsAt name file).bind fun tags => ?_
  cases tags with
  | ok tags => exact .pure tags
  | error failure => exact .pure []

theorem composed_tags : Composed project project.tags := by
  refine (composed_markupFiles none).bind fun files => ?_
  refine (composed_readAll files).bind fun texts => ?_
  dsimp only
  split
  · exact (composed_note _).bind fun _ => .pure _
  · exact .pure _

end Project

end Lineage
