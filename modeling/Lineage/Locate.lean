import Lineage.Lexical.Declaration
import Lineage.Lexical.Tag
import Lineage.Project
import Lineage.Tree

/-!
# Finding entities

A name is declared by code that has a class of that name, or by markup whose file is named like it
without regard to letter case. Code is searched before markup, each in the order of paths, and the
first file that declares the name counts. The entities of a folder are the classes and components
that the files below it may stand for.
-/

namespace Lineage.Project

/-- The markup file declares the component of that name. -/
def isNamedLike (path : Path) (name : String) : Bool := Unicode.sameIgnoringCase path.stem name

/-- The file declares the name; code that cannot be read declares nothing. -/
def declares (project : Project) (name : String) (file : SourceFile) : Scan Bool := do
  match file.kind with
  | .markup => return isNamedLike file.path name
  | .logic =>
      match ← project.read file.path with
      | .ok text => return Lexical.Declaration.declares text name
      | .error failure =>
          note (.skippedFile failure)
          return false

/-- The first of the files that declares the name. -/
def firstDeclaring (project : Project) (name : String) : List SourceFile → Scan (Option Path)
  | [] => return none
  | file :: files => do
      if ← project.declares name file then return some file.path
      else project.firstDeclaring name files

/-- The file that declares the name. -/
def locate (project : Project) (name : String) : Scan (Option Path) := do
  if name.isEmpty then return none
  else
    let logic ← project.logicFiles
    let markup ← project.markupFiles
    match ← project.firstDeclaring name (logic ++ markup) with
    | some path =>
        note (.located name path)
        return some path
    | none =>
        note (.undeclared name)
        return none

/--
What a file of a folder may stand for: code for each class it declares and for the file's own name,
markup for the file's own name if it uses a custom tag.
-/
def entitiesOf (tagPrefix : String) (file : SourceFile) (text : String) : List Entity :=
  match file.kind with
  | .logic =>
      (Lexical.Declaration.names text).map (⟨·, file.path⟩) ++ [⟨file.path.stem, file.path⟩]
  | .markup =>
      if Text.occurs (Lexical.Tag.opener tagPrefix).toList text.toList then
        [⟨file.path.stem, file.path⟩]
      else []

/-- The entities of the files below any directory of that name, each once. -/
def folderEntities (project : Project) (folder : String) : Scan (List Entity) := do
  let files ← project.allFiles (some folder)
  let texts ← project.readAll files
  let entities := firstsBy id
    (texts.flatMap fun (file, text) => entitiesOf project.settings.tagPrefix file text)
  if entities.isEmpty then note (.emptyFolder folder)
  return entities

end Lineage.Project
