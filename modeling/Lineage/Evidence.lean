import Lineage.Project
import Lineage.Tree
import Lineage.Usage

/-!
# Tags used by an entity and by a project

The tags of an entity are collected from the templates beside its file, which carry the file's name
up to its first dot and a markup extension, and then, if the file is code, from the components that
it imports. When something cannot be read the tags collected so far are kept and the rest is given
up with a notice. The tags of a project are those of all its markup.
-/

namespace Lineage.Project

/-- The places where templates of the file would stand, one for each markup extension. -/
def templatePlaces (project : Project) (file : Path) : List Path :=
  let base := String.ofList (file.name.toList.takeWhile (· ≠ '.'))
  project.settings.markupExtensions.map fun extension =>
    file.parent.join (Path.ofString (base ++ extension))

/-- Those of the places that are files. -/
def onlyFiles (store : Store) : List Path → Except TagScanError (List Path)
  | [] => .ok []
  | path :: paths =>
      match store.isFile path with
      | .error error => .error (.unknownTemplate path error)
      | .ok there =>
          match onlyFiles store paths with
          | .error error => .error error
          | .ok found => .ok (if there then path :: found else found)

/-- The templates beside a file. -/
def templates (project : Project) (file : Path) : Except TagScanError (List Path) :=
  onlyFiles project.store (project.templatePlaces file)

/-- What a collection of tags has come to: the tags, and the error that ended it. -/
structure TagScan where
  tags : List TagUsage := []
  error : Option TagScanError := none

/-- The tags in one template or file of code, found by `find` in its text. -/
def tagsIn (project : Project) (path : Path) (find : String → List TagUsage) : Scan TagScan := do
  match ← project.read path with
  | .ok text => return ⟨find text, none⟩
  | .error failure => return ⟨[], some (.unreadable failure)⟩

/-- The tags in templates, up to the first that cannot be read. -/
def templateTags (project : Project) : List Path → Scan TagScan
  | [] => return {}
  | path :: paths => do
      let first ← project.tagsIn path fun text =>
        TagUsage.inMarkup text project.settings.tagPrefix (some path)
      match first.error with
      | some _ => return first
      | none =>
          let others ← project.templateTags paths
          return ⟨first.tags ++ others.tags, others.error⟩

/-- The tags that a file of code implies by its imports. -/
def importTags (project : Project) (file : Path) : Scan TagScan :=
  if project.settings.kindOf file = some .logic then
    project.tagsIn file fun text =>
      TagUsage.inImports text project.settings.importNamespace project.settings.tagPrefix
        (some file)
  else return {}

/-- The tags of an entity's file, as far as they can be collected. -/
def collectTags (project : Project) (file : Path) : Scan TagScan := do
  match project.templates file with
  | .error error => return ⟨[], some error⟩
  | .ok templates =>
      let fromTemplates ← project.templateTags templates
      match fromTemplates.error with
      | some _ => return fromTemplates
      | none =>
          let fromImports ← project.importTags file
          return ⟨fromTemplates.tags ++ fromImports.tags, fromImports.error⟩

/--
The tags of an entity, with a notice if some could not be collected. Only a file whose path cannot
even be looked up is an error.
-/
def tagsAt (project : Project) (name : String) (file : Path) :
    Scan (Except ReadFailure (List TagUsage)) := do
  let found ← project.collectTags file
  match found.error with
  | some (.unreadable ⟨path, .nullCharacter⟩) => return .error ⟨path, .nullCharacter⟩
  | some error =>
      note (.tagsIncomplete name error)
      return .ok found.tags
  | none => return .ok found.tags

/-- The tags of an entity in a file of the project, which is a path that can be looked up. -/
def entityTags (project : Project) (name : String) (file : Path) : Scan (List TagUsage) := do
  match ← project.tagsAt name file with
  | .ok tags => return tags
  | .error _ => return []

/--
The node with the tags of its entity after those that it has, with a notice if some could not be
collected, and the failure that is not kept to a notice: that the path of its file cannot even be
looked up.
-/
def attachTags (project : Project) (node : Tree) : Scan (Tree × Option ReadFailure) := do
  let found ← project.collectTags node.path
  let node := { node with tags := node.tags ++ found.tags }
  match found.error with
  | some (.unreadable ⟨path, .nullCharacter⟩) => return (node, some ⟨path, .nullCharacter⟩)
  | some error =>
      note (.tagsIncomplete node.name error)
      return (node, none)
  | none => return (node, none)

/-- The node after its tags have been attached a number of times, or up to a failure. -/
def attachTimes (project : Project) : Nat → Tree → Scan (Tree × Option ReadFailure)
  | 0, node => return (node, none)
  | count + 1, node => do
      let (node, failure?) ← project.attachTags node
      match failure? with
      | some failure => return (node, some failure)
      | none => project.attachTimes count node

/-- The tags in all markup of the project. -/
def tags (project : Project) : Scan (List TagUsage) := do
  let files ← project.markupFiles
  let texts ← project.readAll files
  let usages := texts.flatMap fun (file, text) =>
    TagUsage.inMarkup text project.settings.tagPrefix (some file.path)
  if usages.isEmpty then note (.noTags project.settings.tagPrefix project.root)
  return usages

end Lineage.Project
