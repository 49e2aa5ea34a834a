import Lineage.Notice
import Lineage.Settings

/-!
# Projects and scans

A project is a directory of a store together with the settings under which it is scanned. A scan
computes over a memory that keeps the texts read so far and the notices given. A text is read from
the store once; from then on the memory answers for it, whatever happens to the file. A read that
fails leaves no trace in the memory.

The listing of a project is in the order of paths. It passes over skipped directories and paths of
which it cannot be told whether they are files, and it can be narrowed to the files below any
directory of a given name.
-/

namespace Lineage

/-- A file that takes part in a scan. -/
structure SourceFile where
  path : Path
  kind : FileKind
  deriving Repr, DecidableEq

/-- What a scan keeps: the texts that it has read and the notices that it has given. -/
structure Memory where
  texts : Keyed Path String := []
  notices : Array Notice := #[]

/-- A computation that reads texts and gives notices. -/
abbrev Scan (α : Type) := StateM Memory α

/-- Gives a notice. -/
def note (notice : Notice) : Scan Unit :=
  modify fun memory => { memory with notices := memory.notices.push notice }

/-- Gives several notices. -/
def noteAll (notices : List Notice) : Scan Unit :=
  modify fun memory => { memory with notices := memory.notices ++ notices.toArray }

/-- A directory of a store with the settings under which it is scanned. -/
structure Project where
  store : Store
  root : Path
  settings : Settings

/-- The text that a read of the path gives: the text remembered, or else that of the store. -/
def Memory.peek (memory : Memory) (store : Store) (path : Path) : Except ReadFailure String :=
  match memory.texts.get? path with
  | some text => .ok text
  | none => store.readText path

/-- The memory after a read with that outcome. -/
def Memory.remember (memory : Memory) (path : Path) : Except ReadFailure String → Memory
  | .ok text => { memory with texts := memory.texts.set path text }
  | .error _ => memory

namespace Project

/-! ## Listing -/

/-- The directories, as seen from the root, that a path leads through. -/
def directories (project : Project) (path : Path) : List String :=
  match path.relativeTo? project.root with
  | some rest => rest.names.dropLast
  | none => []

/-- The path has one of the extensions, without regard to letter case. -/
def hasExtension (extensions : List String) (path : Path) : Bool :=
  (extensions.map Unicode.lower).contains (Unicode.lower path.suffix)

/--
Why nothing can be listed: the root is too long a path. A root that leads nowhere merely has no
files.
-/
def rootFault? (project : Project) : Option AccessError :=
  match project.store.access project.root with
  | .error .tooLong => some .tooLong
  | _ => none

/-- Everything below the root with one of the extensions, in the order of paths. -/
def candidates (project : Project) (extensions : List String) : List Path :=
  (project.store.below project.root).filter (hasExtension extensions)

/-- No directory on the way to the path is passed over, and the one asked for is on it. -/
def admits (project : Project) (folder : Option String) (path : Path) : Bool :=
  let directories := project.directories path
  !directories.any project.settings.skips &&
    folder.all fun name => name.isEmpty || directories.contains name

/-- The path as a source file, if it is one that the listing admits. -/
def sourceFile? (project : Project) (folder : Option String) (path : Path) : Option SourceFile :=
  match project.store.isFile path with
  | .ok true =>
      if project.admits folder path then
        (project.settings.kindOf path).map fun kind => ⟨path, kind⟩
      else none
  | _ => none

/-- The files with one of the extensions, below any directory of the given name if there is one. -/
def files (project : Project) (extensions : List String) (folder : Option String) :
    List SourceFile :=
  (project.candidates extensions).filterMap (project.sourceFile? folder)

/-- The notices for paths that a listing could not tell to be files. -/
def listingNotices (project : Project) (extensions : List String) : List Notice :=
  (project.candidates extensions).filterMap fun path =>
    match project.store.isFile path with
    | .ok _ => none
    | .error _ => some (.skippedPath path)

/-- Lists files, with a notice for each path passed over because it could not be told a file. -/
def listFiles (project : Project) (extensions : List String) (folder : Option String := none) :
    Scan (List SourceFile) := do
  noteAll (project.listingNotices extensions)
  return project.files extensions folder

/-- Lists the code. -/
def logicFiles (project : Project) (folder : Option String := none) : Scan (List SourceFile) :=
  project.listFiles project.settings.logicExtensions folder

/-- Lists the markup. -/
def markupFiles (project : Project) (folder : Option String := none) : Scan (List SourceFile) :=
  project.listFiles project.settings.markupExtensions folder

/-- Lists code and markup together. -/
def allFiles (project : Project) (folder : Option String := none) : Scan (List SourceFile) :=
  project.listFiles project.settings.allExtensions folder

/-! ## Reading -/

/-- Reads a text, from the store only if it is not remembered. -/
def read (project : Project) (path : Path) : Scan (Except ReadFailure String) := do
  let memory ← get
  let outcome := memory.peek project.store path
  set (memory.remember path outcome)
  return outcome

/-- Reads files one after the other, with a notice for each that cannot be read. -/
def readAll (project : Project) : List SourceFile → Scan (List (SourceFile × String))
  | [] => return []
  | file :: files => do
      match ← project.read file.path with
      | .ok text =>
          let others ← project.readAll files
          return (file, text) :: others
      | .error failure =>
          note (.skippedFile failure)
          project.readAll files

end Project

end Lineage
