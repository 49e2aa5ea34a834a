import Lineage.Cli.Layout
import Lineage.Cli.Run

/-!
# The program

Reads from the disk what a command line is about, follows the command line in the workspace so
obtained, and writes back to the disk what has changed there.
-/

namespace Lineage.Program

open Cli

/-- What stands at an entry of a directory, and everything below it. -/
partial def entriesAt (directory : List String) (entry : IO.FS.DirEntry) :
    IO (List (List String × Entry)) := do
  let place := directory ++ [entry.fileName]
  match (← entry.path.symlinkMetadata).type with
  | .dir =>
      let inner ← (← entry.path.readDir).toList.mapM (entriesAt place)
      return (place, .directory) :: inner.flatten
  | .file => return [(place, .file (← IO.FS.readBinFile entry.path).toList)]
  | _ => return []

/-- Everything below a directory. -/
def entriesBelow (place : Path) : IO (List (List String × Entry)) := do
  let found ← (← (← IO.FS.realPath place.toString).readDir).toList.mapM (entriesAt place.names)
  return found.flatten

/-- What stands at a path, if anything does. -/
def entryAt? (place : Path) : IO (Option Entry) := do
  try
    if ← (← IO.FS.realPath place.toString).isDir then return some .directory
    return some (.file (← IO.FS.readBinFile place.toString).toList)
  catch _ => return none

/-- The store with what stands at a path, or else with the directory that would hold it. -/
def addPlace (store : Store) (place : Path) : IO Store := do
  match ← entryAt? place with
  | some entry => return store.put place entry
  | none =>
      match ← entryAt? place.parent with
      | some entry => return store.put place.parent entry
      | none => return store

/-- The store of all that the request is about. -/
def load (current : Path) (places : Places) : IO Store := do
  let resolve (text : String) : Path := (Path.ofString text).resolve current
  let scanned := places.scanned.toList.map resolve
  let store ← (current :: scanned ++ places.files.map resolve).foldlM addPlace .empty
  scanned.foldlM (fun store root => do
    if store.isDirectory root then
      return (← entriesBelow root).foldl (fun store entry => store.set entry.1 entry.2) store
    else return store) store

/-- Tells whether an action on a file succeeds. -/
def succeeds {α : Type} (act : IO α) : IO Bool := do
  try
    let _ ← act
    return true
  catch _ => return false

/--
The configuration file as it stands on the disk, and what may be done with it. Whether a file that
is missing can be made is not found out before it is written.
-/
def loadConfig (place : Path) : IO (ConfigFile × ConfigHost) := do
  let opens := succeeds (IO.FS.withFile place.toString .append fun _ => return ())
  match ← entryAt? place with
  | some .directory => return (.directory, {})
  | some (.file bytes) => return (.file bytes, { writes := ← opens })
  | none =>
      if ← succeeds (do (← IO.FS.realPath place.toString).metadata) then
        return (.file [], { reads := false, writes := ← opens })
      else return (.absent, {})

/-- Writes back the files that a run has changed. -/
def saveChanges (before after : Workspace) : IO Unit := do
  for (place, bytes) in after.store.changes before.store do
    IO.FS.writeBinFile (Path.mk .root place).toString ⟨bytes.toArray⟩
  match after.config with
  | .file bytes =>
      if after.config ≠ before.config then
        IO.FS.createDirAll after.configPath.parent.toString
        IO.FS.writeBinFile after.configPath.toString ⟨bytes.toArray⟩
  | _ => return ()

/-- The names of the commands. -/
def helpLines : List String :=
  "Usage: ct [--version] [--verbose] COMMAND" ::
    choices.flatMap fun (name, choice) =>
      match choice with
      | .verb _ => ["  " ++ name]
      | .group members => members.map fun (inner, _) => "  " ++ name ++ " " ++ inner

/-- The failure in words, if the command has not told it already. -/
def failureLine : Failure → Option String
  | .unsuccessful => none
  | .misuse (.refused refusal) => some refusal.message
  | .misuse (.nullCharacter _) => some "A path has a null character."
  | .misuse _ => some "The command line is not understood; see --help."
  | .config _ => some "The configuration cannot be used."
  | .write path error => some (error.reason path)

/-- Writes lines, with their control sequences if a terminal follows them. -/
def putLines (stream : IO.FS.Stream) (lines : List String) : IO Unit := do
  let text := if ← stream.isTty then Console.terminalText lines else Console.text lines
  stream.putStr text

/-- Shows what a run has to show and returns its status. -/
def present (asked : Except UsageError Request) (outcome : Outcome) : IO UInt32 := do
  let (out, err) := (← IO.getStdout, ← IO.getStderr)
  let console := outcome.console
  for notice in console.notices do
    err.putStrLn (notice.message outcome.workspace.configPath)
  if let .ok .help := asked then putLines out helpLines
  putLines out (console.pictures.flatMap Picture.draw)
  putLines out console.results
  putLines err console.complaints
  match outcome.failure with
  | none => return 0
  | some failure =>
      putLines err (failureLine failure).toList
      return UInt32.ofNat failure.status

/-- Follows a command line. -/
def run (arguments : List String) : IO UInt32 := do
  let current := Path.ofString (← IO.currentDir).toString
  let home := Path.ofString ((← IO.getEnv "HOME").getD "/")
  let configPath := configPlace home (← IO.getEnv "CLASSTREE_HOME")
  let asked := Request.read arguments
  let places :=
    match asked with
    | .ok request => request.places
    | .error _ => {}
  let store ← load current places
  let (config, host) ← loadConfig (current.join configPath)
  let before : Workspace := { store, current, config, configPath, host }
  let outcome := before.run arguments
  saveChanges before outcome.workspace
  present asked outcome

end Lineage.Program

/-- Follows the command line that the program is started with. -/
def main (arguments : List String) : IO UInt32 := Lineage.Program.run arguments
