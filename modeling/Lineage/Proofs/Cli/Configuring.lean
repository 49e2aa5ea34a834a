import Lineage.Proofs.Cli.Histories
import Lineage.Proofs.Config.Preservation
import Lineage.Proofs.Config.Saving

/-!
# Commands that change the configuration

Three commands change the configuration, each by one call.  A call has three ways to end: it has
written the file, it fails, or it answers that it could not write.  The last is what happens where
the file cannot be opened for writing, be it that a directory stands in its place or that the host
does not allow it.

A command reports a failure whenever its call does.  But only the commands that save settings look
at the answer.  The one that takes the settings back does not, and over a directory it reports that
all is done although the directory is still there.  This is the only way for a command to succeed
without having written what it was asked to write.

## Main results

* `Call.answer_eq_false_iff`, `Call.exists_written`: what the answer of a call says about the file.
* `Call.exists_read_of_saved`, `Call.made_of_recovered`: what is read from a draft that is read
  again as the same.
* `exists_command_eq`: what the commands make of the answer.
* `run_configuring_exact`: how each of them ends, on every file and with every host of it.
-/

namespace Lineage

namespace Config.Call

variable {call : Call} {state : ConfigState} {host : ConfigHost} {table values : Table}
  {draft : Toml.Draft} {text : String}

/-! ## What a call answers -/

/-- A call answers that nothing is written exactly if the file cannot be written, there is a place
for it, and there was a draft to be written. -/
theorem answer_eq_false_iff (haccepted : call.Accepted) :
    (call.act.run.run state).1 = .ok false ↔
      state.isWritable = false ∧ state.file ≠ .homeless ∧
        ∃ table draft, state.file.LoadedAs state.host table ∧ call.draft table = .ok draft := by
  constructor
  · intro hanswer
    obtain ⟨result, hrun, hends⟩ := exists_ends haccepted state
    rw [hrun] at hanswer
    cases hends with
    | failed | written | emptied => cases hanswer
    | closed hclosed hloaded hdraft =>
        refine ⟨hclosed, fun hplace => ?_, _, _, hloaded, hdraft⟩
        rw [if_pos hplace] at hanswer
        cases hanswer
  · rintro ⟨hclosed, hplace, table, draft, hloaded, hdraft⟩
    obtain ⟨after, -, hrun⟩ := exists_run_of_not_writable haccepted hclosed hloaded hdraft
    rw [hrun, if_neg hplace]

/-- What cannot be written stays as it is. -/
theorem file_of_not_writable (call : Call) (h : state.isWritable = false) :
    (call.act.run.run state).2.file = state.file := by
  by_cases haccepted : call.Accepted
  · obtain ⟨result, hrun, hends⟩ := exists_ends haccepted state
    rw [hrun]
    cases hends with
    | failed _ hfile | closed _ _ _ hfile => exact hfile
    | written hopen | emptied hopen => cases h.symm.trans hopen
  · rw [run_of_refused haccepted]

/-- A call that is done has written its draft of the configuration that the file was loaded as. -/
theorem exists_written (haccepted : call.Accepted)
    (hdone : (call.act.run.run state).1 = .ok true) :
    ∃ table draft text, state.file.LoadedAs state.host table ∧ call.draft table = .ok draft ∧
      state.host.codec.print draft = .ok text ∧
      (call.act.run.run state).2.file = .file (Text.toBytes text) := by
  obtain ⟨result, hrun, hends⟩ := exists_ends haccepted state
  rw [hrun] at hdone ⊢
  cases hends with
  | failed | emptied => cases hdone
  | closed =>
      dsimp only at hdone
      split at hdone <;> cases hdone
  | written _ hloaded hdraft htext => exact ⟨_, _, _, hloaded, hdraft, htext, rfl⟩

/-! ## What is read afterwards -/

/-- The call has been made in the configuration: its values are among the settings, or there are no
settings any more. -/
def Made : Call → Table → Prop
  | save values, read => ∀ entry ∈ values, Keyed.get? entry.1 (sectionOf read) = some entry.2
  | clear, read => read.get? sectionKey = none

/-- The call gives no setting two values. -/
def GivesOnce : Call → Prop
  | save values => (values.map Prod.fst).Nodup
  | clear => True

/-- From a draft that is read again as the same a configuration is read that has the same entries
and settings. -/
theorem exists_restores (htext : host.codec.print draft = .ok text)
    (hrecovered : Recovered host draft) :
    ∃ read, (ConfigFile.file (Text.toBytes text)).Holds host read ∧
      Restores host draft.table read := by
  have hdraft := hrecovered.draft_eq
  obtain ⟨-, read, hrestores⟩ := hrecovered
  obtain ⟨text', hprint, hread⟩ := hrestores.written
  rw [← hdraft, htext] at hprint
  cases hprint
  exact ⟨read, hread, hrestores⟩

/-- Under the keys of settings the values are found on top of what saving took for the settings. -/
theorem exists_read_of_saved (hdraft : (save values).draft table = .ok draft)
    (htext : host.codec.print draft = .ok text) (hrecovered : Recovered host draft) :
    ∃ present settings read, entries table = .ok present ∧ textKeys? present = some settings ∧
      (ConfigFile.file (Text.toBytes text)).Holds host read ∧
      ∀ key ∈ settingKeys, Keyed.get? key (sectionOf read) =
        Keyed.get? key ((Keyed.update [] settings).update values) := by
  obtain ⟨read, hread, hrestores⟩ := exists_restores htext hrecovered
  cases hentries : entries table with
  | error error =>
      rw [Call.draft, hentries] at hdraft
      cases hdraft
  | ok present =>
      obtain rfl := Except.ok.inj ((draft_save hentries).symm.trans hdraft)
      obtain ⟨settings, hkeys⟩ := exists_textKeys_of_recovered hrecovered
      exact ⟨present, settings, read, rfl, hkeys, hread,
        fun _ hkey => get?_sectionOf_of_restores hkeys hrestores hkey⟩

/-- From a draft that is read again as the same a configuration is read in which the call has been
made. -/
theorem made_of_recovered (haccepted : call.Accepted) (honce : call.GivesOnce)
    (hdraft : call.draft table = .ok draft) (htext : host.codec.print draft = .ok text)
    (hrecovered : Recovered host draft) :
    ∃ read, (ConfigFile.file (Text.toBytes text)).Holds host read ∧ call.Made read := by
  cases call with
  | clear =>
      obtain ⟨read, hread, hrestores⟩ := exists_restores htext hrecovered
      obtain rfl := Except.ok.inj hdraft
      have hcontent : read.contentAt sectionKey = none := by
        rw [hrestores.content, Table.contentAt, Keyed.get?_erase, if_pos rfl, Option.map_none]
      rw [Table.contentAt, Option.map_eq_none_iff] at hcontent
      exact ⟨read, hread, hcontent⟩
  | save values =>
      obtain ⟨present, settings, read, -, -, hread, hfound⟩ :=
        exists_read_of_saved hdraft htext hrecovered
      refine ⟨read, hread, fun entry hentry => ?_⟩
      have hkey := mem_settingKeys_of_accepted haccepted (List.mem_map_of_mem hentry)
      have hvalue : Keyed.get? entry.1 (Keyed.update [] values) = some entry.2 := by
        rw [Keyed.update_nil honce]
        exact Keyed.get?_of_mem honce hentry
      rw [hfound entry.1 hkey, Keyed.get?_update, hvalue, Option.some_or]

end Config.Call

namespace Cli

open Config (Call)

/-! ## The commands -/

/-- The call that a command makes on the configuration, if it is one for the configuration and its
arguments are accepted. -/
def Command.call? : Command → Option Call
  | .setFolder folder =>
      if Running.isFolderName folder then
        some (.save [("default_folder", .scalar (.text (Text.stripped folder)))])
      else none
  | .setPrefix tagPrefix home =>
      if Running.isTagPrefix tagPrefix then
        some (.save [("tag_prefix", .scalar (.text tagPrefix)),
          ("import_namespace", .scalar (.text
            ((home.filter fun text => !text.isEmpty).getD tagPrefix)))])
      else none
  | .resetConfig => some .clear
  | _ => none

/-- The command does not look at what its call answers. -/
def Command.disregards : Command → Bool
  | .resetConfig => true
  | _ => false

variable {workspace : Workspace} {arguments : List String} {command : Command} {call : Call}

/-- The calls of commands name settings only, and none of them twice. -/
theorem Command.accepted_of_call? (h : command.call? = some call) :
    call.Accepted ∧ call.GivesOnce := by
  cases command with
  | setFolder folder =>
      rw [call?] at h
      split at h <;> cases h
      exact ⟨rfl, by simp [Call.GivesOnce]⟩
  | setPrefix tagPrefix home =>
      rw [call?] at h
      split at h <;> cases h
      exact ⟨rfl, by simp [Call.GivesOnce]⟩
  | resetConfig =>
      cases h
      exact ⟨rfl, trivial⟩
  | _ => cases h

namespace Running

/-- Saving settings and saying so is to give up if they are not saved. -/
theorem save_eq (values : Table) (line : String) :
    (do save values; say line) =
      configure (Call.save values).act >>= fun done =>
        if done then say line else giveUp "Could not save configuration." := by
  rw [save, bind_assoc]
  congr 1
  funext done
  cases done <;> rfl

/-- A command for the configuration makes its call.  It says that this is done if the call answers
so, or without regard to the answer. -/
theorem exists_command_eq (h : command.call? = some call) :
    ∃ line, Running.command command =
      configure call.act >>= fun done =>
        if done || command.disregards then say line
        else giveUp "Could not save configuration." := by
  cases command with
  | setFolder folder =>
      rw [Command.call?] at h
      split at h
      · next hname =>
          cases h
          refine ⟨"Default folder set to '" ++ Text.stripped folder ++ "'.", ?_⟩
          rw [Running.command, setFolder, hname]
          simp only [Command.disregards, Bool.or_false]
          exact save_eq _ _
      · cases h
  | setPrefix tagPrefix home =>
      rw [Command.call?] at h
      split at h
      · next hprefix =>
          cases h
          refine ⟨"Tag prefix set to '" ++ tagPrefix ++ "'.", ?_⟩
          rw [Running.command, setPrefix.eq_def, hprefix]
          simp only [Command.disregards, Bool.or_false]
          cases home with
          | none => exact save_eq _ _
          | some text =>
              rw [Option.filter]
              cases hempty : text.isEmpty <;> simp [hempty, save_eq]
      · cases h
  | resetConfig =>
      cases h
      refine ⟨"Scan settings reset to defaults.", ?_⟩
      simp only [Command.disregards, Bool.or_true, if_true]
      rfl
  | _ => cases h

/-- How a command for the configuration ends, and what it leaves behind. -/
theorem run_command_of_call (h : command.call? = some call) (session : Session) :
    failureOf ((Running.command command).run.run session).1 =
        (match (call.act.run.run session.workspace.configState).1 with
          | .ok done => if done || command.disregards then none else some .unsuccessful
          | .error error => some (.config error)) ∧
      ((Running.command command).run.run session).2.workspace =
        { session.workspace with
          config := (call.act.run.run session.workspace.configState).2.file } := by
  obtain ⟨line, hcommand⟩ := exists_command_eq h
  rw [hcommand, run_run_bind, run_configure_eq]
  rcases call.act.run.run session.workspace.configState with ⟨outcome, state⟩
  cases outcome with
  | error error => exact ⟨rfl, rfl⟩
  | ok done =>
      dsimp only [Except.mapError]
      split <;> exact ⟨rfl, rfl⟩

end Running

/-! ## Command lines -/

/-- The configuration of a workspace is loaded as a table. -/
def Workspace.Loads (workspace : Workspace) (table : Table) : Prop :=
  workspace.config.LoadedAs workspace.host table

/-- What a call on the configuration of a workspace answers. -/
def Workspace.answer (workspace : Workspace) (call : Call) : Except ConfigError Bool :=
  (call.act.run.run workspace.configState).1

theorem run_of_call (hchosen : workspace.chosen? arguments = some command)
    (hcall : command.call? = some call) :
    (workspace.run arguments).failure =
        (match workspace.answer call with
          | .ok done => if done || command.disregards then none else some .unsuccessful
          | .error error => some (.config error)) ∧
      (workspace.run arguments).workspace =
        { workspace with config := (call.act.run.run workspace.configState).2.file } := by
  rw [Workspace.run_of_chosen hchosen]
  exact Running.run_command_of_call hcall _

theorem exitCode_eq_zero_iff_of_call (hchosen : workspace.chosen? arguments = some command)
    (hcall : command.call? = some call) :
    (workspace.run arguments).exitCode = 0 ↔
      workspace.answer call = .ok true ∨
        workspace.answer call = .ok false ∧ command = .resetConfig := by
  have hdisregards : command.disregards = true ↔ command = .resetConfig := by
    cases command <;> simp [Command.disregards]
  rw [Outcome.exitCode_eq_zero_iff, (run_of_call hchosen hcall).1, ← hdisregards]
  rcases workspace.answer call with error | (_ | _)
  · simp
  · cases command.disregards <;> simp
  · simp

/-- The call is written in the configuration file: what it makes of the configuration that was
loaded is there as a text.  If that text is read again as what it was written from, then the call
has been made in what is read. -/
def Workspace.Writes (workspace : Workspace) (arguments : List String) (call : Call) : Prop :=
  ∃ table draft text,
    workspace.Loads table ∧ call.draft table = .ok draft ∧
    workspace.host.codec.print draft = .ok text ∧
    (workspace.run arguments).workspace = { workspace with config := .file (Text.toBytes text) } ∧
    (Config.Recovered workspace.host draft →
      ∃ read, (ConfigFile.file (Text.toBytes text)).Holds workspace.host read ∧ call.Made read)

/-- A command for the configuration succeeds exactly if its call has written, or if the settings are
taken back and the call answers that it has not.  It answers so exactly if the file cannot be
opened, though there is a place for it, and there was something to be written.  Where the file
cannot be written nothing changes.  If the call has written, the file holds what it has made of the
configuration. -/
theorem run_configuring_exact (hchosen : workspace.chosen? arguments = some command)
    (hcall : command.call? = some call) :
    ((workspace.run arguments).exitCode = 0 ↔
        workspace.answer call = .ok true ∨
          workspace.answer call = .ok false ∧ command = .resetConfig) ∧
      (workspace.answer call = .ok false ↔
        workspace.configState.isWritable = false ∧ workspace.config ≠ .homeless ∧
          ∃ table draft, workspace.Loads table ∧ call.draft table = .ok draft) ∧
      (workspace.configState.isWritable = false →
        (workspace.run arguments).workspace = workspace) ∧
      (workspace.answer call = .ok true → workspace.Writes arguments call) := by
  obtain ⟨haccepted, honce⟩ := Command.accepted_of_call? hcall
  have hworkspace := (run_of_call hchosen hcall).2
  refine ⟨exitCode_eq_zero_iff_of_call hchosen hcall, Call.answer_eq_false_iff haccepted,
    fun hclosed => ?_, fun hdone => ?_⟩
  · rw [hworkspace, Call.file_of_not_writable call hclosed]
    rfl
  · obtain ⟨table, draft, text, hloaded, hdraft, htext, hfile⟩ :=
      Call.exists_written haccepted hdone
    rw [hfile] at hworkspace
    exact ⟨table, draft, text, hloaded, hdraft, htext, hworkspace,
      fun hrecovered => Call.made_of_recovered haccepted honce hdraft htext hrecovered⟩

/-- A workspace with a directory in the place of its configuration. -/
def Workspace.obstructed : Workspace := { Workspace.oneClass with config := .directory }

/-- A workspace with an empty configuration that can be read only. -/
def Workspace.readOnly : Workspace :=
  { Workspace.oneClass with config := .file [], host := { writes := false } }

/-- Without a configuration a prefix is saved, and read again as it was given.  Over a directory no
folder is saved, nor over a file that can be read only, and the command fails. -/
theorem run_configuring_exact_oneClass :
    ((Workspace.oneClass.run ["config", "set-prefix", "x"]).exitCode = 0 ∧
      ∃ read,
        (Workspace.oneClass.run ["config", "set-prefix", "x"]).workspace.config.Holds {} read ∧
        Keyed.get? "tag_prefix" (Config.sectionOf read) = some (.scalar (.text "x")) ∧
        Keyed.get? "import_namespace" (Config.sectionOf read) = some (.scalar (.text "x"))) ∧
    ∀ closed ∈ [Workspace.obstructed, Workspace.readOnly],
      (closed.run ["config", "set-folder", "lwc"]).exitCode ≠ 0 ∧
        (closed.run ["config", "set-folder", "lwc"]).workspace = closed := by
  have hprefix : Workspace.oneClass.chosen? ["config", "set-prefix", "x"] =
      some (.setPrefix "x" none) := rfl
  have hdone : Workspace.oneClass.answer (.save [("tag_prefix", .scalar (.text "x")),
      ("import_namespace", .scalar (.text "x"))]) = .ok true := rfl
  obtain ⟨hexit, -, -, hwrites⟩ := run_configuring_exact hprefix rfl
  refine ⟨⟨hexit.mpr (.inl hdone), ?_⟩, fun closed hmem => ?_⟩
  · obtain ⟨table, draft, text, hloaded, hdraft, -, hafter, hmade⟩ := hwrites hdone
    obtain rfl : table = [] := hloaded.elim id And.right
    have hrecovered : Config.Recovered {} draft := by
      cases hdraft
      exact ⟨rfl, _,
        .refl "[scan]\ntag_prefix = \"x\"\nimport_namespace = \"x\"\n" rfl rfl rfl rfl⟩
    obtain ⟨read, hread, hvalues⟩ := hmade hrecovered
    rw [hafter]
    exact ⟨read, hread, hvalues _ List.mem_cons_self,
      hvalues _ (List.mem_cons_of_mem _ List.mem_cons_self)⟩
  · have hclosed : closed.chosen? ["config", "set-folder", "lwc"] = some (.setFolder "lwc") ∧
        closed.configState.isWritable = false ∧
        closed.answer (.save [("default_folder", .scalar (.text "lwc"))]) = .ok false := by
      simp only [List.mem_cons, List.not_mem_nil, or_false] at hmem
      obtain rfl | rfl := hmem <;> exact ⟨rfl, rfl, rfl⟩
    obtain ⟨hfolder, hclosed, hnot⟩ := hclosed
    obtain ⟨hexit, -, hkept, -⟩ := run_configuring_exact hfolder rfl
    refine ⟨fun hzero => ?_, hkept hclosed⟩
    obtain hyes | ⟨-, hreset⟩ := hexit.mp hzero
    · cases hyes.symm.trans hnot
    · cases hreset

/-- Over a directory, as over a file that can be read only, the settings are reported to be taken
back, although the call has answered that nothing was written.  A folder with a control character
is reported to be set, and is not what is written. -/
theorem resetConfig_reports_unwritten :
    (Workspace.obstructed.chosen? ["config", "reset"] = some .resetConfig ∧
      Workspace.obstructed.answer .clear = .ok false ∧
      (Workspace.obstructed.run ["config", "reset"]).exitCode = 0 ∧
      (Workspace.obstructed.run ["config", "reset"]).workspace.config = .directory) ∧
    (Workspace.readOnly.answer .clear = .ok false ∧
      (Workspace.readOnly.run ["config", "reset"]).exitCode = 0) ∧
    (Workspace.oneClass.run ["config", "set-folder", "a\x01b"]).exitCode = 0 ∧
      (Workspace.oneClass.run ["config", "set-folder", "a\x01b"]).workspace.config =
        .file (Text.toBytes "[scan]\ndefault_folder = \"ax01b\"\n") :=
  ⟨⟨rfl, rfl, rfl, rfl⟩, ⟨rfl, rfl⟩, rfl, rfl⟩

end Cli

end Lineage
