import Lineage.Cli.Run
import Lineage.Proofs.Config.Calls

/-!
# Running in a session

A command is put together from steps that look at the workspace, show something or end the command,
and from very few that change the workspace.  This module says what each step does in its session,
and that all of the former leave the workspace as it was.

## Main results

* `run_scan`, `run_configure`: what the steps of a command do in a session.
* `leaves_project`, `answer_project`: a project is opened without a change to the workspace.
* `leaves_hierarchyOf`, `answer_hierarchyOf`: nor does building a hierarchy change it.
-/

namespace Lineage

namespace Cli

namespace Running

variable {α : Type}

/-! ## Steps of a command -/

@[simp] theorem run_say (line : String) (session : Session) :
    (say line).run.run session =
      (.ok (), { session with
        console := { session.console with results := session.console.results ++ [line] } }) := rfl

@[simp] theorem run_draw (picture : Picture) (session : Session) :
    (draw picture).run.run session =
      (.ok (), { session with
        console := { session.console with
          pictures := session.console.pictures ++ [picture] } }) := rfl

@[simp] theorem run_forM_say (line : α → String) (items : List α) (session : Session) :
    (items.forM fun item => say (line item)).run.run session =
      (.ok (), { session with
        console := { session.console with
          results := session.console.results ++ items.map line } }) := by
  induction items generalizing session with
  | nil => simp; rfl
  | cons item items ih =>
      simp only [List.forM, run_run_bind, run_say, ih]
      simp

@[simp] theorem run_scan (act : Scan α) (session : Session) :
    (scan act).run.run session =
      (.ok (act.run {}).1, { session with
        console := session.console.report session.least (act.run {}).2.notices }) := rfl

/-- A computation on the configuration that is made in a session. -/
@[simp] theorem run_configure_eq (act : Configuring α) (session : Session) :
    (configure act).run.run session =
      ((act.run.run session.workspace.configState).1.mapError .config,
        { session with
          workspace := { session.workspace with
            config := (act.run.run session.workspace.configState).2.file }
          console := session.console.report session.least
            (act.run.run session.workspace.configState).2.notices }) := by
  have hget : (get : Running Session).run.run session = (.ok session, session) := rfl
  rw [configure, run_run_bind, hget]
  dsimp only
  rcases act.run.run session.workspace.configState with ⟨outcome, state⟩
  cases outcome <;> rfl

/-- Reading the configuration shows nothing but notices. -/
theorem run_configure {act : Configuring α} {a : α} {session : Session}
    (hact : (act.run.run session.workspace.configState).1 = .ok a) :
    ∃ after, (configure act).run.run session = (.ok a, after) ∧
      after.workspace.store = session.workspace.store ∧
      after.workspace.current = session.workspace.current ∧
      after.console.results = session.console.results ∧
      after.console.pictures = session.console.pictures := by
  rw [run_configure_eq, hact]
  exact ⟨_, rfl, rfl, rfl, rfl, rfl⟩

/-! ## Steps that leave the workspace alone -/

theorem leaves_onConsole (change : Console → Console) :
    Leaves Session.workspace (onConsole change) := fun _ => rfl

theorem leaves_say (line : String) : Leaves Session.workspace (say line) :=
  leaves_onConsole _

theorem leaves_draw (picture : Picture) : Leaves Session.workspace (draw picture) :=
  leaves_onConsole _

theorem leaves_giveUp (line : String) : Leaves Session.workspace (giveUp line : Running α) :=
  (leaves_onConsole _).bind fun _ => .throw _

theorem leaves_refuse (refusal : Refusal) :
    Leaves Session.workspace (refuse refusal : Running α) := .throw _

theorem leaves_scan (act : Scan α) : Leaves Session.workspace (scan act) := fun _ => rfl

theorem leaves_forM_say (line : α → String) (items : List α) :
    Leaves Session.workspace (items.forM fun item => say (line item)) := by
  intro session
  rw [run_forM_say]

theorem leaves_configure {act : Configuring α} (hact : Leaves ConfigState.file act) :
    Leaves Session.workspace (configure act) := by
  intro session
  rw [run_configure_eq, hact]
  rfl

end Running

/-- The settings that hold in the workspace, or why there are none. -/
def Workspace.settings (workspace : Workspace) : Except ConfigError Settings :=
  ((Config.loadSettings).run.run workspace.configState).1

namespace Running

theorem leaves_project (root : Path) : Leaves Session.workspace (project root) :=
  (leaves_configure Config.leaves_loadSettings).bind fun _ => Leaves.get.bind fun _ => .pure _

/-- A project is opened under the settings that hold. -/
theorem answer_project (root : Path) (session : Session) :
    ((project root).run.run session).1 =
      (session.workspace.settings.mapError .config).map (session.workspace.project root) := by
  have hquiet := leaves_configure Config.leaves_loadSettings session
  rw [project, run_run_bind]
  rw [run_configure_eq] at hquiet ⊢
  rw [Workspace.settings]
  rcases hload : (Config.loadSettings).run.run session.workspace.configState with
    ⟨outcome, state⟩
  rw [hload] at hquiet
  cases outcome with
  | error error => rfl
  | ok settings =>
      exact congrArg (fun workspace => Except.ok (workspace.project root settings)) hquiet

theorem leaves_hierarchyOf (project : Project) (name : String) :
    Leaves Session.workspace (hierarchyOf project name) := by
  refine (leaves_scan _).bind fun tree => ?_
  cases tree with
  | some tree => exact .pure _
  | none => exact leaves_giveUp _

theorem answer_hierarchyOf (project : Project) (name : String) (session : Session) :
    ((hierarchyOf project name).run.run session).1 =
      match ((project.hierarchy name).run {}).1 with
      | some tree => .ok tree
      | none => .error .unsuccessful := by
  rw [hierarchyOf, run_run_bind, run_scan]
  cases ((project.hierarchy name).run {}).1 <;> rfl

end Running

end Cli

end Lineage
