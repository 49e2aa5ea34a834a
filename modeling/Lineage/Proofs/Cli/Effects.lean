import Lineage.Proofs.Cli.Sessions
import Lineage.Proofs.Config.Preservation

/-!
# What a command can do

A command has many ways to end and few ways to do something.  All of these are said here once, as
the steps that a command can make: it fails and changes nothing, it shows a hierarchy, it writes a
graph, it changes the configuration, or it does no more than answer.  Only the configuration can be
spoiled on the way, if something in it cannot be written, since the file is emptied before that
shows.

## Main results

* `step_command`: a command makes one of these steps.
* `step_run`: a command line does too, if it runs a command, and otherwise changes nothing.
-/

namespace Lineage

/-! ## Files that are written -/

/-- What a write does to a store: it files one entry anew. -/
theorem Store.eq_set_of_write {store later : Store} {path : Path} {bytes : List UInt8}
    (h : store.write path bytes = .ok later) :
    later = store.set (Path.collapse path.names) (.file bytes) ∧
      IsPlace (Path.collapse path.names) := by
  rw [write] at h
  split at h
  · cases h
  · cases h
  · cases h
  · split at h
    · next place hplace =>
        rw [placeFor?] at hplace
        split at hplace
        · cases hplace
          split at h
          · next hnames =>
              cases h
              exact ⟨rfl, hnames⟩
          · cases h
        · cases hplace
        · cases hplace
    · cases h

namespace Cli

/-! ## Commands and what they are for -/

/-- The command puts a hierarchy on display. -/
def Command.shows : Command → Bool
  | .hierarchy .. | .mainClass .. => true
  | _ => false

/-- The command changes the configuration. -/
def Command.configures : Command → Bool
  | .setFolder _ | .setPrefix .. | .resetConfig => true
  | _ => false

namespace Workspace

/-- The hierarchy that a command builds to show it, under given settings. -/
def built? (workspace : Workspace) (settings : Settings) : Command → Option Tree
  | .hierarchy name root _ _ => (((workspace.project root settings).hierarchy name).run {}).1
  | .mainClass file selection root _ =>
      match (((workspace.project root settings).hierarchyFor (file.resolve workspace.current)
          selection).run {}).1 with
      | .ok (_, tree) => tree
      | .error _ => none
  | _ => none

/-- The hierarchy that a command builds to show it, if there are settings. -/
def shown? (workspace : Workspace) (command : Command) : Option Tree :=
  match workspace.settings with
  | .ok settings => workspace.built? settings command
  | .error _ => none

/-- The path of the file that a command writes a graph to: the one given, or one in the current
directory that is named after the root and the format. -/
def outputPath? (workspace : Workspace) : Command → Option Path
  | .saveGraph name format output _ =>
      some (workspace.current.join (output.getD
        (workspace.current.join (Path.ofString (name ++ "_hierarchy." ++ Unicode.lower format)))))
  | _ => none

/-- The command that a command line runs, if it runs one. -/
def chosen? (workspace : Workspace) (arguments : List String) : Option Command :=
  match Request.read arguments with
  | .ok (.run _ verb given) => (workspace.command verb given).toOption
  | _ => none

end Workspace

/-! ## Steps -/

/-- What a command can do to a workspace, and how it ends when it does. -/
inductive Step (workspace : Workspace) (command : Command) : Option Failure → Workspace → Prop
  | failed (failure : Failure) : Step workspace command (some failure) workspace
  | answered (h : command.shows = false) : Step workspace command none workspace
  | shown {tree : Tree} (h : workspace.shown? command = some tree) :
      Step workspace command none { workspace with display := ⟨some tree⟩ }
  | written {path : Path} (h : workspace.outputPath? command = some path) (bytes : List UInt8) :
      Step workspace command none { workspace with
        store := workspace.store.set (Path.collapse path.names) (.file bytes) }
  | configured (h : command.configures = true) (file : ConfigFile) :
      Step workspace command none { workspace with config := file }
  | spoiled (fault : Toml.Fault) (file : ConfigFile) :
      Step workspace command (some (.config (.unwritable fault))) { workspace with config := file }

namespace Step

variable {workspace after : Workspace} {command : Command} {failure : Option Failure}

/-- The only file that a step changes is the one that the command writes a graph to. -/
theorem outputPath?_of_changed (h : Step workspace command failure after) {place : List String}
    (hchanged : after.store.entryAt place ≠ workspace.store.entryAt place) :
    failure = none ∧
      ∃ path, workspace.outputPath? command = some path ∧ place = Path.collapse path.names := by
  cases h with
  | written hpath bytes =>
      refine ⟨rfl, _, hpath, Classical.byContradiction fun hother => ?_⟩
      exact hchanged ((Store.entryAt_set _ _ _ _).trans (if_neg fun h => hother h.1))
  | failed | answered | shown | configured | spoiled => exact absurd rfl hchanged

/-- A step that fails changes nothing, unless the configuration could not be written. -/
theorem eq_of_failed (h : Step workspace command failure after) (hfailed : failure ≠ none)
    (hwritable : ∀ fault, failure ≠ some (.config (.unwritable fault))) : after = workspace := by
  cases h with
  | failed => rfl
  | answered | shown | written | configured => exact absurd rfl hfailed
  | spoiled fault file => exact absurd rfl (hwritable fault)

theorem configures_of_changed (h : Step workspace command failure after)
    (hchanged : after.config ≠ workspace.config)
    (hwritable : ∀ fault, failure ≠ some (.config (.unwritable fault))) :
    failure = none ∧ command.configures = true := by
  cases h with
  | configured hconfigures file => exact ⟨rfl, hconfigures⟩
  | failed | answered | shown | written => exact absurd rfl hchanged
  | spoiled fault file => exact absurd rfl (hwritable fault)

/-- A command that shows a hierarchy has it on display if it succeeds. -/
theorem display_of_shows (h : Step workspace command failure after) (hok : failure = none)
    (hshows : command.shows = true) :
    ∃ tree, workspace.shown? command = some tree ∧ after.display.root = some tree := by
  cases h with
  | shown htree => exact ⟨_, htree, rfl⟩
  | answered hanswered =>
      rw [hshows] at hanswered
      cases hanswered
  | written hpath bytes =>
      cases command with
      | saveGraph => cases hshows
      | _ => cases hpath
  | configured hconfigures file =>
      cases command with
      | hierarchy | mainClass => cases hconfigures
      | _ => cases hshows
  | failed | spoiled => cases hok

theorem shows_of_shown? {tree : Tree} (h : workspace.shown? command = some tree) :
    command.shows = true := by
  rw [Workspace.shown?] at h
  split at h
  · cases command with
    | hierarchy | mainClass => rfl
    | locate | classes | saveGraph | listTags | showTag | showConfig | setFolder | setPrefix
    | resetConfig => cases h
  · cases h

/-- Nothing else changes the display. -/
theorem display_eq (h : Step workspace command failure after)
    (hquiet : failure = none → command.shows = false) : after.display = workspace.display := by
  cases h with
  | shown htree =>
      rw [shows_of_shown? htree] at hquiet
      cases hquiet rfl
  | failed | answered | written | configured | spoiled => rfl

end Step

/-- The failure that a command has ended with, if any. -/
def failureOf {α : Type} : Except Failure α → Option Failure
  | .ok _ => none
  | .error failure => some failure

namespace Running

variable {α : Type} {session : Session} {command : Command}

/-- In the session the computation makes a step of the command. -/
def Makes (act : Running Unit) (session : Session) (command : Command) : Prop :=
  Step session.workspace command (failureOf (act.run.run session).1)
    (act.run.run session).2.workspace

/-- What looks at the workspace first can only fail by itself. -/
theorem Makes.bind {act : Running α} {next : α → Running Unit}
    (hact : Leaves Session.workspace act)
    (hnext : ∀ a after, (act.run.run session).1 = .ok a → after.workspace = session.workspace →
      (next a).Makes after command) : (act >>= next).Makes session command := by
  have hsame := hact session
  rw [Makes, run_run_bind]
  rcases hrun : act.run.run session with ⟨outcome, after⟩
  rw [hrun] at hsame hnext
  cases outcome with
  | ok a =>
      have hstep := hnext a after rfl hsame
      rw [Makes, hsame] at hstep
      exact hstep
  | error failure =>
      dsimp only at hsame ⊢
      rw [hsame]
      exact .failed failure

theorem makes_of_leaves {act : Running Unit} (hact : Leaves Session.workspace act)
    (hcommand : command.shows = false) : act.Makes session command := by
  rw [Makes, hact session]
  cases (act.run.run session).1 with
  | ok _ => exact .answered hcommand
  | error failure => exact .failed failure

theorem makes_refuse (refusal : Refusal) : (refuse refusal : Running Unit).Makes session command :=
  .failed _

theorem makes_giveUp (line : String) : (giveUp line : Running Unit).Makes session command :=
  .failed _

/-! ## Hierarchies -/

theorem exists_settings_of_project {root : Path} {project : Project}
    (h : ((Running.project root).run.run session).1 = .ok project) :
    ∃ settings, session.workspace.settings = .ok settings ∧
      project = session.workspace.project root settings := by
  rw [answer_project] at h
  cases hsettings : session.workspace.settings with
  | error error =>
      rw [hsettings] at h
      cases h
  | ok settings =>
      rw [hsettings] at h
      cases h
      exact ⟨settings, rfl, rfl⟩

theorem hierarchy_eq_of_hierarchyOf {project : Project} {name : String} {tree : Tree}
    (h : ((hierarchyOf project name).run.run session).1 = .ok tree) :
    ((project.hierarchy name).run {}).1 = some tree := by
  rw [answer_hierarchyOf] at h
  split at h
  · next found hfound =>
      cases h
      exact hfound
  · cases h

theorem makes_present {tree : Tree} (htree : session.workspace.shown? command = some tree)
    (asJson showPaths : Bool) : (present tree asJson showPaths).Makes session command := by
  cases asJson with
  | true => exact .shown htree
  | false => exact .shown htree

theorem makes_hierarchy (name : String) (root : Path) (asJson showPaths : Bool) :
    (hierarchy name root asJson showPaths).Makes session
      (.hierarchy name root asJson showPaths) := by
  refine Makes.bind (leaves_project root) fun project opened hproject hopened => ?_
  refine Makes.bind (leaves_hierarchyOf project name) fun tree later htree hlater => ?_
  obtain ⟨settings, hsettings, rfl⟩ := exists_settings_of_project hproject
  refine makes_present ?_ asJson showPaths
  rw [hlater, hopened, Workspace.shown?, hsettings]
  exact hierarchy_eq_of_hierarchyOf htree

theorem makes_mainClass (file : Path) (selection : Option String) (root : Path) (asJson : Bool) :
    (mainClass file selection root asJson).Makes session
      (.mainClass file selection root asJson) := by
  refine Makes.bind (leaves_project root) fun project opened hproject hopened => ?_
  refine Makes.bind Leaves.get fun asked current hasked hcurrent => ?_
  obtain ⟨settings, hsettings, rfl⟩ := exists_settings_of_project hproject
  cases hasked
  refine Makes.bind (leaves_scan _) fun found later hfound hlater => ?_
  rw [run_scan] at hfound
  split
  · exact makes_refuse _
  · exact makes_giveUp _
  · next names tree _ =>
      refine makes_present ?_ asJson false
      rw [hopened, Except.ok.injEq] at hfound
      rw [hlater, hcurrent, hopened, Workspace.shown?, hsettings]
      dsimp only
      rw [Workspace.built?, hfound]
  · split
    · split
      · exact makes_giveUp _
      · exact makes_giveUp _
    · exact makes_giveUp _

/-! ## Graphs -/

theorem makes_write {path : Path} (hpath : session.workspace.outputPath? command =
    some (session.workspace.current.join path)) (text line : String) :
    (do write path text; say line).Makes session command := by
  have hget : (get : Running Session).run.run session = (.ok session, session) := rfl
  rw [Makes, run_run_bind, write, run_run_bind, hget]
  dsimp only
  cases hwrite : session.workspace.store.write (session.workspace.current.join path)
    (Text.toBytes text) with
  | error error => exact .failed _
  | ok later =>
      obtain ⟨rfl, -⟩ := Store.eq_set_of_write hwrite
      exact .written hpath _

theorem makes_saveGraph (name format : String) (output : Option Path) (root : Path) :
    (saveGraph name format output root).Makes session
      (.saveGraph name format output root) := by
  rw [saveGraph]
  dsimp only
  split
  · exact makes_refuse _
  · next known hknown =>
      refine Makes.bind (leaves_project root) fun project opened hproject hopened => ?_
      refine Makes.bind (leaves_hierarchyOf project name) fun tree later htree hlater => ?_
      refine Makes.bind Leaves.get fun asked current hasked hcurrent => ?_
      cases hasked
      refine makes_write ?_ _ _
      rw [hcurrent]
      rfl

/-! ## Configuration -/

/-- Whatever is said after it, a call on the configuration is a step of the command that makes it,
unless the call is not done and the command goes on as if it were. -/
theorem makes_configure (hcommand : command.configures = true) (call : Config.Call)
    {next : Bool → Running Unit} (hnext : ∀ done, Leaves Session.workspace (next done))
    (hdone : ∀ session, ((next true).run.run session).1 = .ok ()) :
    (configure call.act >>= next).Makes session command := by
  rw [Makes, run_run_bind, run_configure_eq]
  have hfile := call.file_eq_or_done session.workspace.configState
  rcases hrun : call.act.run.run session.workspace.configState with ⟨outcome, state⟩
  rw [hrun] at hfile
  cases outcome with
  | ok done =>
      dsimp only [Except.mapError]
      rw [hnext done]
      cases done with
      | true =>
          rw [hdone]
          exact .configured hcommand state.file
      | false =>
          obtain hsame | ⟨⟨⟩⟩ | ⟨_, ⟨⟩⟩ := hfile
          rw [hsame]
          cases ((next false).run.run _).1 with
          | ok _ => exact .configured hcommand session.workspace.config
          | error failure => exact .failed failure
  | error error =>
      dsimp only [Except.mapError]
      obtain hsame | ⟨⟨⟩⟩ | ⟨fault, ⟨⟩⟩ := hfile
      · rw [hsame]
        exact .failed _
      · exact .spoiled fault state.file

theorem makes_save (hcommand : command.configures = true) (values : Table) (line : String) :
    (do save values; say line).Makes session command := by
  rw [save, bind_assoc]
  refine makes_configure hcommand (.save values) (fun done => ?_) fun _ => rfl
  cases done with
  | true => exact (Leaves.pure _).bind fun _ => leaves_say line
  | false => exact (leaves_giveUp _).bind fun _ => leaves_say line

theorem makes_resetConfig : resetConfig.Makes session .resetConfig :=
  makes_configure rfl .clear (fun _ => leaves_say _) fun _ => rfl

theorem makes_setFolder (folder : String) :
    (setFolder folder).Makes session (.setFolder folder) := by
  rw [setFolder]
  split
  · exact makes_refuse _
  · exact makes_save rfl _ _

theorem makes_setPrefix (tagPrefix : String) (home : Option String) :
    (setPrefix tagPrefix home).Makes session (.setPrefix tagPrefix home) := by
  rw [setPrefix.eq_def]
  split
  · exact makes_refuse _
  · exact makes_save rfl _ _

/-! ## Commands that only answer -/

theorem leaves_locate (name : String) (root : Path) :
    Leaves Session.workspace (locate name root) := by
  refine (leaves_project root).bind fun project => (leaves_scan _).bind fun found => ?_
  cases found with
  | some path => exact leaves_say _
  | none => exact leaves_giveUp _

theorem leaves_classes (folder : Option String) (root : Path) :
    Leaves Session.workspace (classes folder root) := by
  rw [classes]
  split
  · exact leaves_refuse _
  · refine (leaves_project root).bind fun project => (leaves_scan _).bind fun entities => ?_
    cases entities with
    | nil => exact leaves_say _
    | cons entity entities => exact leaves_draw _

theorem leaves_listTags (root : Path) : Leaves Session.workspace (listTags root) := by
  refine (leaves_project root).bind fun project => (leaves_scan _).bind fun usages => ?_
  cases usages with
  | nil => exact leaves_say _
  | cons usage usages => exact leaves_draw _

theorem leaves_showTag (tag : String) (root : Path) :
    Leaves Session.workspace (showTag tag root) := by
  refine (leaves_project root).bind fun project => (leaves_scan _).bind fun usages => ?_
  split
  · exact leaves_say _
  · exact leaves_forM_say _ _

theorem leaves_showConfig : Leaves Session.workspace showConfig :=
  (leaves_configure Config.leaves_loadSettings).bind fun _ =>
    Leaves.get.bind fun _ => leaves_draw _

/-! ## Commands -/

/-- A command makes one of the steps. -/
theorem step_command (command : Command) (session : Session) :
    (Running.command command).Makes session command := by
  cases command with
  | hierarchy name root asJson showPaths => exact makes_hierarchy name root asJson showPaths
  | locate name root => exact makes_of_leaves (leaves_locate name root) rfl
  | classes folder root => exact makes_of_leaves (leaves_classes folder root) rfl
  | mainClass file selection root asJson => exact makes_mainClass file selection root asJson
  | saveGraph name format output root => exact makes_saveGraph name format output root
  | listTags root => exact makes_of_leaves (leaves_listTags root) rfl
  | showTag tag root => exact makes_of_leaves (leaves_showTag tag root) rfl
  | showConfig => exact makes_of_leaves leaves_showConfig rfl
  | setFolder folder => exact makes_setFolder folder
  | setPrefix tagPrefix home => exact makes_setPrefix tagPrefix home
  | resetConfig => exact makes_resetConfig

/-- All that comes before the command is that the level of the notices is set. -/
theorem run_request (verbose : Bool) (verb : Verb) (given : Arguments) (session : Session) :
    (request (.run verbose verb given)).run.run session =
      match session.workspace.command verb given with
      | .ok chosen =>
          (Running.command chosen).run.run
            { session with least := if verbose then .debug else .warning }
      | .error error =>
          (.error (.misuse error),
            { session with least := if verbose then .debug else .warning }) := by
  show ((match session.workspace.command verb given with
    | .ok chosen => Running.command chosen
    | .error error => throw (.misuse error)) : Running Unit).run.run _ = _
  cases session.workspace.command verb given <;> rfl

end Running

/-! ## Command lines -/

theorem Workspace.run_eq (workspace : Workspace) (arguments : List String) :
    workspace.run arguments =
      ⟨failureOf ((Running.arguments arguments).run.run { workspace }).1,
        ((Running.arguments arguments).run.run { workspace }).2.workspace,
        ((Running.arguments arguments).run.run { workspace }).2.console⟩ := by
  rw [run]
  rcases (Running.arguments arguments).run.run { workspace } with ⟨_ | _, session⟩ <;> rfl

/-- The command line asks for notices of all levels. -/
def Request.isVerbose (arguments : List String) : Bool :=
  match Request.read arguments with
  | .ok (.run verbose _ _) => verbose
  | _ => false

/-- The session in which a command line comes to its command. -/
def Workspace.sessionFor (workspace : Workspace) (arguments : List String) : Session where
  workspace := workspace
  least := if Request.isVerbose arguments then .debug else .warning

/-- The outcome of a command in a session. -/
def Session.outcome (session : Session) (command : Command) : Outcome :=
  ⟨failureOf ((Running.command command).run.run session).1,
    ((Running.command command).run.run session).2.workspace,
    ((Running.command command).run.run session).2.console⟩

/-- The outcome of a command line is that of the command that it runs. -/
theorem Workspace.run_of_chosen {workspace : Workspace} {arguments : List String}
    {command : Command} (h : workspace.chosen? arguments = some command) :
    workspace.run arguments = (workspace.sessionFor arguments).outcome command := by
  rw [run_eq, Running.arguments, sessionFor, Request.isVerbose]
  rw [chosen?] at h
  cases hread : Request.read arguments with
  | error error =>
      rw [hread] at h
      cases h
  | ok asked =>
      rw [hread] at h
      cases asked with
      | help => cases h
      | version => cases h
      | run verbose verb given =>
          dsimp only at h ⊢
          rw [Running.run_request]
          cases hcommand : workspace.command verb given with
          | error error =>
              rw [hcommand] at h
              cases h
          | ok chosen =>
              rw [hcommand] at h
              cases h
              rfl

/-- A command line makes a step of the command that it runs, and changes nothing if it runs none. -/
theorem Workspace.step_run (workspace : Workspace) (arguments : List String) :
    match workspace.chosen? arguments with
    | some command =>
        Step workspace command (workspace.run arguments).failure
          (workspace.run arguments).workspace
    | none => (workspace.run arguments).workspace = workspace := by
  rw [run_eq, Running.arguments, chosen?]
  cases Request.read arguments with
  | error error => rfl
  | ok asked =>
      cases asked with
      | help => rfl
      | version => rfl
      | run verbose verb given =>
          dsimp only
          rw [Running.run_request]
          cases workspace.command verb given with
          | error error => rfl
          | ok chosen =>
              exact Running.step_command chosen
                { workspace, least := if verbose then .debug else .warning }

end Cli

end Lineage
