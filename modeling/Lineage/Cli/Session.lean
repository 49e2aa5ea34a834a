import Lineage.Cli.Command
import Lineage.Cli.Console

/-!
# Sessions

A command runs in a session, which holds the workspace that it acts on and the console that it shows
its results on. A command that fails keeps what it has shown and changed until then. Every scan
starts with an empty memory, so a command sees the files as they are when it runs.
-/

namespace Lineage.Cli

/-- Why a command did not do what it was asked for. -/
inductive Failure where
  /-- What was asked for is not there, as the command has said. -/
  | unsuccessful
  | misuse (error : UsageError)
  | config (error : ConfigError)
  /-- A file could not be written. -/
  | write (path : Path) (error : AccessError)
  deriving Repr, DecidableEq

/-- The number by which the program reports the failure. -/
def Failure.status : Failure → Nat
  | unsuccessful | config _ | write .. | misuse (.nullCharacter _) => 1
  | misuse _ => 2

/-- What a running command acts on. -/
structure Session where
  workspace : Workspace
  console : Console := {}
  /-- The least level of the notices that are shown. -/
  least : Level := .warning

/-- A running command. -/
abbrev Running (α : Type) := ExceptT Failure (StateM Session) α

namespace Running

/-- Changes the console. -/
def onConsole (change : Console → Console) : Running Unit :=
  modify fun session => { session with console := change session.console }

/-- Writes a line of the results. -/
def say (line : String) : Running Unit :=
  onConsole fun console => { console with results := console.results ++ [line] }

/-- Complains that what was asked for is not there, and ends. -/
def giveUp {α : Type} (line : String) : Running α := do
  onConsole fun console => { console with complaints := console.complaints ++ ["❌ " ++ line] }
  throw .unsuccessful

/-- Lays something out on the screen. -/
def draw (picture : Picture) : Running Unit :=
  onConsole fun console => { console with pictures := console.pictures ++ [picture] }

/-- Shows notices. -/
def report (notices : Array Notice) : Running Unit :=
  modify fun session =>
    { session with console := session.console.report session.least notices }

/-- Ends because a value is refused. -/
def refuse {α : Type} (refusal : Refusal) : Running α := throw (.misuse (.refused refusal))

/-- Scans with an empty memory. -/
def scan {α : Type} (act : Scan α) : Running α := do
  let (value, memory) := act.run {}
  report memory.notices
  return value

/-- Reads or changes the configuration. -/
def configure {α : Type} (act : Configuring α) : Running α := do
  let session ← get
  let (outcome, state) := act.run.run session.workspace.configState
  modify fun session =>
    { session with workspace := { session.workspace with config := state.file } }
  report state.notices
  match outcome with
  | .ok value => return value
  | .error error => throw (.config error)

/-- Writes a file. -/
def write (path : Path) (text : String) : Running Unit := do
  let workspace := (← get).workspace
  match workspace.store.write (workspace.current.join path) (Text.toBytes text) with
  | .ok store => modify fun session => { session with workspace := { workspace with store } }
  | .error error => throw (.write path error)

/-- The project at a root, under the settings of the user. -/
def project (root : Path) : Running Project := do
  let settings ← configure Config.loadSettings
  return (← get).workspace.project root settings

end Running

end Lineage.Cli
