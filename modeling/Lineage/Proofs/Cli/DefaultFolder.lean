import Lineage.Proofs.Cli.Configuring
import Lineage.Proofs.Config.Overrides
import Lineage.Proofs.Scan.Answers
import Lineage.Proofs.Scan.Listing

/-!
# The folder that is listed when none is named

A folder can be named on the command line that lists it, or be saved as the one that is listed when
none is named.  Saving takes off the blanks around the name, and naming does not.  So the two agree
on a name without such blanks.  On any other they disagree even if both find nothing, since each of
them shows the name that it has looked for.

What is shown does not depend on the saved folder in any other way, and neither do the settings
that are loaded, as long as they were a table before.

## Main results

* `outcome_classes`: what the listing of a folder comes to.
* `settings_of_saved`: the settings that hold after a folder is saved.
* `run_savedFolder_exact`: when the saved folder and the named one are listed alike.
-/

namespace Lineage

namespace Settings

variable {settings result : Settings} {values others : Table} {key folder : String}

/-! ## Overriding the folder -/

/-- The settings with another folder to be listed when none is named. -/
def withDefaultFolder (settings : Settings) (folder : String) : Settings :=
  { settings with defaultFolder := folder }

/-- Overrides that differ in a folder only lead to settings that do, unless the former folder could
not be taken at all. -/
theorem withOverrides_of_folder
    (hfolder : Keyed.get? "default_folder" values = some (.scalar (.text folder)))
    (hne : folder.isEmpty = false)
    (hothers : ∀ key ∈ Config.settingKeys, key ≠ "default_folder" →
      Keyed.get? key values = Keyed.get? key others)
    (hshort : settings.withOverrides others ≠ .error (.noForm "default_folder")) :
    settings.withOverrides values =
      (settings.withOverrides others).map fun result => result.withDefaultFolder folder := by
  have hkey (key : String) (hmem : key ∈ Config.settingKeys) (hdiffer : key ≠ "default_folder") :=
    hothers key hmem hdiffer
  rw [withOverrides, overrideText_of_text hfolder hne,
    override_congr (hkey "logic_extensions" (by decide) (by decide)),
    override_congr (hkey "markup_extensions" (by decide) (by decide)),
    overrideText_congr (hkey "tag_prefix" (by decide) (by decide)),
    overrideText_congr (hkey "import_namespace" (by decide) (by decide)),
    override_congr (hkey "skip_dirs" (by decide) (by decide))]
  rw [withOverrides] at hshort ⊢
  cases hlogic : override others "logic_extensions" settings.logicExtensions extensions with
  | error error => rfl
  | ok logic =>
      cases hmarkup : override others "markup_extensions" settings.markupExtensions extensions with
      | error error => rfl
      | ok markup =>
          obtain ⟨former, hformer⟩ | hlong :=
            overrideText_cases others "default_folder" settings.defaultFolder
          · rw [hformer]
            cases overrideText others "tag_prefix" settings.tagPrefix with
            | error error => rfl
            | ok tagPrefix =>
                cases overrideText others "import_namespace" settings.importNamespace with
                | error error => rfl
                | ok home =>
                    cases override others "skip_dirs" settings.skipDirs directories <;> rfl
          · rw [hlogic, hmarkup, hlong] at hshort
            exact absurd rfl hshort

/-- A folder that is given is the one that holds. -/
theorem defaultFolder_of_withOverrides
    (hfolder : Keyed.get? "default_folder" values = some (.scalar (.text folder)))
    (hne : folder.isEmpty = false) (h : settings.withOverrides values = .ok result) :
    result.defaultFolder = folder := by
  have hshort : settings.withOverrides values ≠ .error (.noForm "default_folder") := by
    rw [h]
    exact nofun
  have hsame := withOverrides_of_folder hfolder hne (fun _ _ _ => rfl) hshort
  rw [h] at hsame
  exact congrArg defaultFolder (Except.ok.inj hsame)

end Settings

namespace Cli

open Config (Call)

/-! ## Listing a folder -/

/-- The notices of a workspace's configuration when it is loaded. -/
def Workspace.loadNotices (workspace : Workspace) : Array Notice :=
  ((Config.loadSettings).run.run workspace.configState).2.notices

/-- The session after the configuration is loaded. -/
def Session.opened (session : Session) : Session :=
  { session with
    console := session.console.report session.least session.workspace.loadNotices }

/-- The lines that are shown for the entities of a folder. -/
def listedLines (folder : String) : List Entity → List String
  | [] => ["No classes found in folder '" ++ folder ++ "'"]
  | _ :: _ => []

/-- The tables that are shown for the entities of a folder. -/
def listedTables (root : Path) (folder : String) : List Entity → List Picture
  | [] => []
  | entity :: entities => [.grid {
      title := "Classes in '" ++ folder ++ "'"
      headings := ["Name", "File"]
      rows := (entity :: entities).map fun entity => [entity.name, entity.path.shownFrom root] }]

/-- The console on which the entities of a folder are listed. -/
def Console.listed (console : Console) (least : Level) (project : Project) (folder : String) :
    Console :=
  let found := (project.folderEntities folder).run {}
  { console.report least found.2.notices with
    results := console.results ++ listedLines folder found.1
    pictures := console.pictures ++ listedTables project.root folder found.1 }

namespace Running

/-- A project is opened under the settings that hold, with the notices of the configuration. -/
theorem run_project_eq (root : Path) (session : Session) :
    (project root).run.run session =
      ((session.workspace.settings.mapError .config).map (session.workspace.project root),
        session.opened) := by
  refine Prod.ext (answer_project root session) ?_
  have hquiet := leaves_configure Config.leaves_loadSettings session
  have hget : (get : Running Session).run.run session = (.ok session, session) := rfl
  rw [project, run_run_bind]
  rw [run_configure_eq] at hquiet ⊢
  rcases hload : (Config.loadSettings).run.run session.workspace.configState with
    ⟨outcome, state⟩
  rw [hload] at hquiet
  have hopened : session.opened =
      { session with console := session.console.report session.least state.notices } := by
    rw [Session.opened, Workspace.loadNotices, hload]
  rw [hopened]
  dsimp only at hquiet ⊢
  rw [hquiet]
  cases outcome <;> rfl

theorem run_classes {folder : Option String} (hfolder : ∀ name ∈ folder, isFolderName name = true)
    (root : Path) (session : Session) :
    (classes folder root).run.run session =
      match session.workspace.settings with
      | .error error => (.error (.config error), session.opened)
      | .ok settings => (.ok (), { session with
          console := session.opened.console.listed session.least
            (session.workspace.project root settings) (folder.getD settings.defaultFolder) }) := by
  have hnamed : (folder.any fun name => !isFolderName name) = false := by
    cases folder with
    | none => rfl
    | some name => simp [hfolder name rfl]
  rw [classes, hnamed, if_neg Bool.false_ne_true, run_run_bind, run_project_eq]
  cases session.workspace.settings with
  | error error => rfl
  | ok settings =>
      simp only [Except.mapError, Except.map]
      rw [run_run_bind, run_scan]
      simp only
      have hsame : (session.workspace.project root settings).settings.defaultFolder =
          settings.defaultFolder := rfl
      rw [hsame, Console.listed]
      cases (((session.workspace.project root settings).folderEntities
          (folder.getD settings.defaultFolder)).run {}).1 with
      | nil =>
          rw [listedTables, List.append_nil]
          rfl
      | cons entity entities =>
          rw [listedLines, List.append_nil]
          rfl

end Running

/-! ## Listings that are told apart -/

theorem quoted_inj {before after folder other : String}
    (h : before ++ folder ++ after = before ++ other ++ after) : folder = other := by
  have hchars := congrArg String.toList h
  simp only [String.toList_append, List.append_assoc, List.append_cancel_left_eq,
    List.append_cancel_right_eq] at hchars
  exact String.toList_inj.mp hchars

/-- Listings show the folder that was looked for. -/
theorem folder_eq_of_listed {root anchor : Path} {folder other : String}
    {entities others : List Entity}
    (hlines : listedLines folder entities = listedLines other others)
    (htables : listedTables root folder entities = listedTables anchor other others) :
    folder = other := by
  cases entities with
  | nil =>
      cases others with
      | nil =>
          rw [listedLines, listedLines, List.cons.injEq] at hlines
          exact quoted_inj hlines.1
      | cons entity others => cases htables
  | cons entity entities =>
      cases others with
      | nil => cases htables
      | cons entity' others =>
          rw [listedTables, listedTables, List.cons.injEq, Picture.grid.injEq,
            Grid.mk.injEq] at htables
          exact quoted_inj htables.1.1

/-- Another default folder makes no difference to the listing of a folder. -/
theorem folderEntities_withDefaultFolder (workspace : Workspace) (root : Path)
    (settings : Settings) (saved folder : String) :
    (workspace.project root (settings.withDefaultFolder saved)).folderEntities folder =
      (workspace.project root settings).folderEntities folder := by
  have hread (files : List SourceFile) :
      (workspace.project root (settings.withDefaultFolder saved)).readAll files =
        (workspace.project root settings).readAll files := by
    induction files with
    | nil => rfl
    | cons file files ih =>
        rw [Project.readAll, Project.readAll, ih]
        rfl
  have hfiles : (workspace.project root (settings.withDefaultFolder saved)).allFiles (some folder) =
      (workspace.project root settings).allFiles (some folder) := rfl
  simp only [Project.folderEntities, hfiles, hread]
  rfl

/-! ## What is saved -/

/-- The values that are saved for a folder. -/
def folderValues (folder : String) : Table :=
  [("default_folder", .scalar (.text (Text.stripped folder)))]

theorem get?_folderValues (folder : String) :
    Keyed.get? "default_folder" (Keyed.update [] (folderValues folder)) =
      some (.scalar (.text (Text.stripped folder))) := rfl

theorem get?_folderValues_of_ne {key : String} (folder : String) (h : key ≠ "default_folder") :
    Keyed.get? key (Keyed.update [] (folderValues folder)) = none :=
  if_neg (Ne.symm h)

variable {workspace : Workspace} {saving given omitted : List String} {folder : String}
  {table read : Table} {root : Path}

/-- Whatever is loaded is known under the keys of settings. -/
theorem get?_known_of_mem {key : String} (h : key ∈ Config.settingKeys) (settings : Table) :
    Keyed.get? key (Config.known settings) = Keyed.get? key settings := by
  rw [Config.get?_known, if_pos (List.contains_iff_mem.mpr h)]

theorem settings_of_loads (h : workspace.Loads table) :
    workspace.settings =
      (({} : Settings).withOverrides (Config.known (Config.sectionOf table))).mapError
        .settings := by
  rw [Workspace.settings]
  obtain hholds | ⟨hignored, rfl⟩ := h
  · rw [Config.run_loadSettings hholds]
  · rw [Config.run_loadSettings_of_ignored hignored]
    rfl

theorem loadNotices_of_loads (h : workspace.Loads table) :
    workspace.loadNotices = #[] ∨ workspace.loadNotices = #[.configIgnored] := by
  rw [Workspace.loadNotices]
  obtain hholds | ⟨hignored, -⟩ := h
  · rw [Config.run_loadSettings hholds]
    exact .inl rfl
  · rw [Config.run_loadSettings_of_ignored hignored]
    exact .inr rfl

/-- The configuration that is read has the folder on top of what saving takes for the settings of
the table. -/
def HasFolder (folder : String) (table read : Table) : Prop :=
  ∃ present settings, Config.entries table = .ok present ∧
    Config.textKeys? present = some settings ∧
    ∀ key ∈ Config.settingKeys, Keyed.get? key (Config.sectionOf read) =
      Keyed.get? key ((Keyed.update [] settings).update (folderValues folder))

theorem HasFolder.get?_folder (h : HasFolder folder table read) :
    Keyed.get? "default_folder" (Config.known (Config.sectionOf read)) =
      some (.scalar (.text (Text.stripped folder))) := by
  obtain ⟨present, settings, -, -, hfound⟩ := h
  rw [get?_known_of_mem (by decide), hfound _ (by decide), Keyed.get?_update,
    get?_folderValues, Option.some_or]

/-- Where the settings are a table, or have nothing but a folder, the other settings are those that
were loaded before. -/
theorem HasFolder.get?_of_ne {key : String} (h : HasFolder folder table read)
    (hdistinct : Value.KeysDistinct (.table table))
    (hsection : Config.SectionIsTable table ∨ Config.Covers (folderValues folder) table)
    (hkey : key ∈ Config.settingKeys) (hother : key ≠ "default_folder") :
    Keyed.get? key (Config.known (Config.sectionOf read)) =
      Keyed.get? key (Config.known (Config.sectionOf table)) := by
  obtain ⟨present, settings, hentries, hkeys, hfound⟩ := h
  rw [get?_known_of_mem hkey, get?_known_of_mem hkey, hfound key hkey, Keyed.get?_update,
    get?_folderValues_of_ne folder hother, Option.none_or]
  by_cases htable : Config.SectionIsTable table
  · obtain rfl := Except.ok.inj ((Config.entries_eq htable).symm.trans hentries)
    obtain rfl := Option.some.inj ((Config.textKeys?_map _).symm.trans hkeys)
    rw [Keyed.update_nil (Config.nodup_sectionOf hdistinct)]
  · obtain ⟨present', settings', hentries', hkeys', hcovered⟩ := hsection.resolve_left htable
    obtain rfl := Except.ok.inj (hentries.symm.trans hentries')
    obtain rfl := Option.some.inj (hkeys.symm.trans hkeys')
    have hnone : key ∉ settings.map Prod.fst := by
      intro hmem
      exact hother (List.mem_singleton.mp (hcovered key hkey hmem))
    rw [Config.sectionOf_eq_nil htable]
    exact Keyed.get?_update_nil_eq_none_iff.mpr hnone

/-- The folder that a command line saves is read again. -/
theorem exists_read_of_setFolder (hsaving : workspace.chosen? saving = some (.setFolder folder))
    (hsaved : (workspace.run saving).failure = none)
    (hrecovered : ∀ table draft, workspace.Loads table →
      (Call.save (folderValues folder)).draft table = .ok draft →
        Config.Recovered workspace.host draft) :
    Running.isFolderName folder = true ∧ ∃ table file read,
      workspace.Loads table ∧
      (workspace.run saving).workspace = { workspace with config := file } ∧
      file.Holds workspace.host read ∧ HasFolder folder table read := by
  cases hname : Running.isFolderName folder with
  | false =>
      have hrefused : (workspace.run saving).failure = some (.misuse (.refused .folder)) := by
        rw [Workspace.run_of_chosen hsaving, Session.outcome, Running.command, Running.setFolder,
          hname]
        rfl
      cases hsaved.symm.trans hrefused
  | true =>
      have hcall : (Command.setFolder folder).call? = some (.save (folderValues folder)) := by
        rw [Command.call?, if_pos hname]
        rfl
      obtain ⟨haccepted, -⟩ := Command.accepted_of_call? hcall
      obtain ⟨hfailure, hworkspace⟩ := run_of_call hsaving hcall
      have hdone : workspace.answer (.save (folderValues folder)) = .ok true := by
        obtain hdone | ⟨-, hreset⟩ := (exitCode_eq_zero_iff_of_call hsaving hcall).mp
          (Outcome.exitCode_eq_zero_iff.mpr hsaved)
        · exact hdone
        · cases hreset
      obtain ⟨table, draft, text, hkind, hdraft, htext, hfile⟩ :=
        Call.exists_written haccepted hdone
      rw [hfile] at hworkspace
      obtain ⟨present, settings, read, hentries, hkeys, hread, hfound⟩ :=
        Call.exists_read_of_saved hdraft htext (hrecovered table draft hkind hdraft)
      exact ⟨rfl, table, _, read, hkind, hworkspace, hread,
        present, settings, hentries, hkeys, hfound⟩

/-! ## What holds afterwards -/

theorem isEmpty_stripped_of_isFolderName (h : Running.isFolderName folder = true) :
    (Text.stripped folder).isEmpty = false := by
  rw [Running.isFolderName, Bool.and_eq_true, Bool.and_eq_true, Bool.not_eq_true'] at h
  exact h.1.1

/-- The folder that was saved is the default folder. -/
theorem defaultFolder_of_saved {settings : Settings} (h : HasFolder folder table read)
    (hname : Running.isFolderName folder = true) (hread : workspace.Loads read)
    (hsettings : workspace.settings = .ok settings) :
    settings.defaultFolder = Text.stripped folder := by
  rw [settings_of_loads hread] at hsettings
  cases hoverrides : ({} : Settings).withOverrides (Config.known (Config.sectionOf read)) with
  | error error =>
      rw [hoverrides] at hsettings
      cases hsettings
  | ok result =>
      rw [hoverrides] at hsettings
      obtain rfl : result = settings := Except.ok.inj hsettings
      exact Settings.defaultFolder_of_withOverrides h.get?_folder
        (isEmpty_stripped_of_isFolderName hname) hoverrides

/-- Where the settings were a table, or had nothing but a folder, they are the same but for the
folder that was saved. -/
theorem settings_of_saved {file : ConfigFile} (h : HasFolder folder table read)
    (hname : Running.isFolderName folder = true) (hbefore : workspace.Loads table)
    (hafter : { workspace with config := file : Workspace }.Loads read)
    (hsection : Config.SectionIsTable table ∨ Config.Covers (folderValues folder) table)
    (hshort : workspace.settings ≠ .error (.settings (.noForm "default_folder"))) :
    { workspace with config := file : Workspace }.settings =
      workspace.settings.map fun settings =>
        settings.withDefaultFolder (Text.stripped folder) := by
  have hloaded := @settings_of_loads { workspace with config := file } read hafter
  rw [settings_of_loads hbefore] at hshort ⊢
  have hlong : ({} : Settings).withOverrides (Config.known (Config.sectionOf table)) ≠
      .error (.noForm "default_folder") := by
    intro hfails
    rw [hfails] at hshort
    exact hshort rfl
  have hothers : ∀ key ∈ Config.settingKeys, key ≠ "default_folder" →
      Keyed.get? key (Config.known (Config.sectionOf read)) =
        Keyed.get? key (Config.known (Config.sectionOf table)) :=
    fun _ hkey hother => h.get?_of_ne hbefore.keysDistinct hsection hkey hother
  rw [hloaded, Settings.withOverrides_of_folder h.get?_folder
    (isEmpty_stripped_of_isFolderName hname) hothers hlong]
  cases ({} : Settings).withOverrides (Config.known (Config.sectionOf table)) <;> rfl

/-! ## Folders that are listed -/

/-- The outcome of listing a folder, or the one that is listed when none is named. -/
theorem outcome_classes {folder : Option String}
    (hfolder : ∀ name ∈ folder, Running.isFolderName name = true) (root : Path)
    (session : Session) :
    session.outcome (.classes folder root) =
      match session.workspace.settings with
      | .error error => ⟨some (.config error), session.workspace, session.opened.console⟩
      | .ok settings => ⟨none, session.workspace, session.opened.console.listed session.least
          (session.workspace.project root settings) (folder.getD settings.defaultFolder)⟩ := by
  rw [Session.outcome, Running.command, Running.run_classes hfolder]
  cases session.workspace.settings <;> rfl

theorem run_given (hname : Running.isFolderName folder = true)
    (hgiven : workspace.chosen? given = some (.classes (some folder) root)) :
    workspace.run given =
      match workspace.settings with
      | .error error =>
          ⟨some (.config error), workspace, (workspace.sessionFor given).opened.console⟩
      | .ok settings => ⟨none, workspace,
          (workspace.sessionFor given).opened.console.listed (workspace.sessionFor given).least
            (workspace.project root settings) folder⟩ := by
  have hfolder : ∀ name ∈ some folder, Running.isFolderName name = true := by
    rintro _ ⟨⟩
    exact hname
  rw [Workspace.run_of_chosen hgiven, outcome_classes hfolder]
  rfl

theorem run_omitted (homitted : workspace.chosen? omitted = some (.classes none root)) :
    workspace.run omitted =
      match workspace.settings with
      | .error error =>
          ⟨some (.config error), workspace, (workspace.sessionFor omitted).opened.console⟩
      | .ok settings => ⟨none, workspace,
          (workspace.sessionFor omitted).opened.console.listed (workspace.sessionFor omitted).least
            (workspace.project root settings) settings.defaultFolder⟩ := by
  have hnone : ∀ name ∈ (none : Option String), Running.isFolderName name = true := nofun
  rw [Workspace.run_of_chosen homitted, outcome_classes hnone]
  rfl

/-- Under settings with a saved folder, a folder that is named is listed as the saved one exactly if
they are the same, or no settings hold at all. -/
theorem run_eq_iff_of_defaultFolder {saved : String} (hname : Running.isFolderName folder = true)
    (hgiven : workspace.chosen? given = some (.classes (some folder) root))
    (homitted : workspace.chosen? omitted = some (.classes none root))
    (hverbose : Request.isVerbose omitted = Request.isVerbose given)
    (hdefault : ∀ settings, workspace.settings = .ok settings → settings.defaultFolder = saved) :
    workspace.run omitted = workspace.run given ↔
      saved = folder ∨ (workspace.run given).failure ≠ none := by
  have hsession : workspace.sessionFor omitted = workspace.sessionFor given := by
    rw [Workspace.sessionFor, hverbose]
    rfl
  rw [run_given hname hgiven, run_omitted homitted, hsession]
  cases hsettings : workspace.settings with
  | error error => exact iff_of_true rfl (.inr (Option.some_ne_none _))
  | ok settings =>
      simp only [hdefault settings hsettings, ne_eq, not_true_eq_false, or_false]
      constructor
      · intro hsame
        exact folder_eq_of_listed (congrArg (fun outcome => outcome.console.results) hsame)
          (congrArg (fun outcome => outcome.console.pictures) hsame)
      · rintro rfl
        rfl

/-! ## Before and after saving -/

/-- The consoles show the same, but that one of them may report an unreadable configuration. -/
structure Console.Alike (console other : Console) : Prop where
  results : console.results = other.results
  complaints : console.complaints = other.complaints
  pictures : console.pictures = other.pictures
  notices : console.notices.filter (· ≠ .configIgnored) =
    other.notices.filter (· ≠ .configIgnored)

/-- The outcomes end alike, and show the same but for that report. -/
structure Outcome.ShowsAlike (outcome other : Outcome) : Prop where
  failure : outcome.failure = other.failure
  console : outcome.console.Alike other.console

theorem Console.Alike.report {console other : Console} (h : console.Alike other) (least : Level)
    (notices : Array Notice) :
    (console.report least notices).Alike (other.report least notices) where
  results := h.results
  complaints := h.complaints
  pictures := h.pictures
  notices := by
    rw [Console.report, Console.report, Array.filter_append Array.size_append,
      Array.filter_append Array.size_append, h.notices]

/-- A folder with the same entities is listed alike. -/
theorem Console.Alike.listed {console other : Console} (h : console.Alike other) (least : Level)
    {project later : Project} {folder : String} (hroot : later.root = project.root)
    (hentities : later.folderEntities folder = project.folderEntities folder) :
    (console.listed least later folder).Alike (other.listed least project folder) := by
  have hreported := h.report least ((project.folderEntities folder).run {}).2.notices
  simp only [Console.listed, hroot, hentities]
  constructor <;> dsimp only
  · rw [h.results]
  · exact hreported.complaints
  · rw [h.pictures]
  · exact hreported.notices

/-- When a configuration is loaded, nothing is shown but that it may be unreadable. -/
theorem alike_opened (h : workspace.Loads table) (arguments : List String) :
    (workspace.sessionFor arguments).opened.console.Alike {} := by
  have hnotices : (workspace.sessionFor arguments).opened.console.notices =
      #[] ++ workspace.loadNotices.filter fun notice =>
        decide ((workspace.sessionFor arguments).least.rank ≤ notice.level.rank) := rfl
  refine ⟨rfl, rfl, rfl, ?_⟩
  rw [hnotices]
  obtain hnone | hignored := loadNotices_of_loads h
  · simp [hnone]
  · simp [hignored]

theorem Console.Alike.symm {console other : Console} (h : console.Alike other) :
    other.Alike console :=
  ⟨h.results.symm, h.complaints.symm, h.pictures.symm, h.notices.symm⟩

theorem Console.Alike.trans {console other third : Console} (h : console.Alike other)
    (hthird : other.Alike third) : console.Alike third :=
  ⟨h.results.trans hthird.results, h.complaints.trans hthird.complaints,
    h.pictures.trans hthird.pictures, h.notices.trans hthird.notices⟩

/-- If two workspaces are the same but for the folder that is saved in the second one, then the
folder named in the first is listed as that saved in the second exactly if they are the same, or no
settings hold at all. -/
theorem showsAlike_iff_of_settings {file : ConfigFile} {saved : String}
    (hname : Running.isFolderName folder = true)
    (hgiven : workspace.chosen? given = some (.classes (some folder) root))
    (homitted : workspace.chosen? omitted = some (.classes none root))
    (hverbose : Request.isVerbose omitted = Request.isVerbose given)
    (hbefore : workspace.Loads table)
    (hafter : { workspace with config := file : Workspace }.Loads read)
    (hsettings : { workspace with config := file : Workspace }.settings =
      workspace.settings.map fun settings => settings.withDefaultFolder saved) :
    ({ workspace with config := file : Workspace }.run omitted).ShowsAlike (workspace.run given) ↔
      saved = folder ∨ (workspace.run given).failure ≠ none := by
  have homitted' : { workspace with config := file : Workspace }.chosen? omitted =
      some (.classes none root) := homitted
  have hopened := (@alike_opened { workspace with config := file } read hafter omitted).trans
    (alike_opened hbefore given).symm
  have hleast : ({ workspace with config := file : Workspace }.sessionFor omitted).least =
      (workspace.sessionFor given).least := by
    rw [Workspace.sessionFor, Workspace.sessionFor, hverbose]
  rw [run_given hname hgiven, run_omitted homitted', hsettings, hleast]
  cases workspace.settings with
  | error error => exact iff_of_true ⟨rfl, hopened⟩ (.inr (Option.some_ne_none _))
  | ok settings =>
      simp only [Except.map, ne_eq, not_true_eq_false, or_false]
      constructor
      · intro halike
        exact folder_eq_of_listed halike.console.results halike.console.pictures
      · rintro rfl
        exact ⟨rfl, hopened.listed _ rfl
          (folderEntities_withDefaultFolder workspace root settings saved saved)⟩

/-- After a folder is saved it is listed when none is named, without the blanks around it.  So the
same is shown then as for the folder that was given exactly if there are no such blanks, or if no
settings hold.  It makes no difference whether the given folder is listed after it is saved or
before, if the settings are a table or have nothing but a folder.  The text that is saved must be
read again as it was. -/
theorem run_savedFolder_exact (hsaving : workspace.chosen? saving = some (.setFolder folder))
    (hgiven : workspace.chosen? given = some (.classes (some folder) root))
    (homitted : workspace.chosen? omitted = some (.classes none root))
    (hverbose : Request.isVerbose omitted = Request.isVerbose given)
    (hsaved : (workspace.run saving).failure = none)
    (hrecovered : ∀ table draft, workspace.Loads table →
      (Call.save (folderValues folder)).draft table = .ok draft →
        Config.Recovered workspace.host draft) :
    ((workspace.run saving).workspace.run omitted = (workspace.run saving).workspace.run given ↔
        Text.stripped folder = folder ∨
          ((workspace.run saving).workspace.run given).failure ≠ none) ∧
      ∀ table, workspace.Loads table →
        Config.SectionIsTable table ∨ Config.Covers (folderValues folder) table →
        workspace.settings ≠ .error (.settings (.noForm "default_folder")) →
          (((workspace.run saving).workspace.run omitted).ShowsAlike (workspace.run given) ↔
            Text.stripped folder = folder ∨ (workspace.run given).failure ≠ none) := by
  obtain ⟨hname, table, file, read, hkind, hafter, hread, hfolder⟩ :=
    exists_read_of_setFolder hsaving hsaved hrecovered
  rw [hafter]
  constructor
  · refine run_eq_iff_of_defaultFolder hname hgiven homitted hverbose fun settings hsettings => ?_
    exact defaultFolder_of_saved hfolder hname (.inl hread) hsettings
  · intro table' hkind' hsection hshort
    obtain rfl := hkind.unique hkind'
    refine showsAlike_iff_of_settings hname hgiven homitted hverbose hkind (.inl hread) ?_
    exact settings_of_saved hfolder hname hkind (.inl hread) hsection hshort

/-- A workspace with one class in a folder. -/
def Workspace.lwcFolder : Workspace where
  store :=
    { entries := [(["p"], .directory), (["p", "lwc"], .directory),
        (["p", "lwc", "a.js"], .file "class A {}".toUTF8.toList)] }
  current := ⟨.root, ["p"]⟩
  configPath := ⟨.root, ["config.toml"]⟩

theorem recovered_lwcFolder {folder : String} (h : Text.stripped folder = "lwc") (table : Table)
    (draft : Toml.Draft) (hkind : Workspace.lwcFolder.Loads table)
    (hdraft : (Call.save (folderValues folder)).draft table = .ok draft) :
    Config.Recovered Workspace.lwcFolder.host draft := by
  obtain rfl : table = [] := hkind.elim id And.right
  rw [folderValues, h] at hdraft
  cases hdraft
  exact ⟨rfl, _, .refl "[scan]\ndefault_folder = \"lwc\"\n" rfl rfl rfl rfl⟩

/-- The folder is listed alike whether it is saved or given. -/
theorem run_savedFolder_exact_lwcFolder :
    ((Workspace.lwcFolder.run ["config", "set-folder", "lwc"]).workspace.run ["classes"]).ShowsAlike
        (Workspace.lwcFolder.run ["classes", "lwc"]) := by
  have hsaving : Workspace.lwcFolder.chosen? ["config", "set-folder", "lwc"] =
      some (.setFolder "lwc") := rfl
  have hgiven : Workspace.lwcFolder.chosen? ["classes", "lwc"] =
      some (.classes (some "lwc") ⟨.relative, []⟩) := rfl
  have homitted : Workspace.lwcFolder.chosen? ["classes"] =
      some (.classes none ⟨.relative, []⟩) := rfl
  have hplain : Text.stripped "lwc" = "lwc" := rfl
  have hkind : Workspace.lwcFolder.Loads [] := .inl rfl
  have hsection : Config.SectionIsTable [] := .inl rfl
  have hsettings : Workspace.lwcFolder.settings = .ok {} := rfl
  have hshort : Workspace.lwcFolder.settings ≠ .error (.settings (.noForm "default_folder")) := by
    rw [hsettings]
    exact nofun
  obtain ⟨-, hbefore⟩ :=
    run_savedFolder_exact hsaving hgiven homitted rfl rfl (recovered_lwcFolder hplain)
  exact (hbefore [] hkind (.inl hsection) hshort).mpr (.inl hplain)

/-- The class is found in the folder, and nothing is found in one with blanks in its name. -/
theorem folderEntities_lwcFolder :
    (((Workspace.lwcFolder.project ⟨.relative, []⟩ {}).folderEntities "lwc").run {}).1.map
        Entity.name = ["A", "a"] ∧
      (((Workspace.lwcFolder.project ⟨.relative, []⟩ {}).folderEntities " lwc ").run {}).1 =
        [] := by
  have hbelow : (Workspace.lwcFolder.project ⟨.relative, []⟩ {}).store.below ⟨.root, ["p"]⟩ =
      [⟨.root, ["p", "lwc"]⟩, ⟨.root, ["p", "lwc", "a.js"]⟩] :=
    Store.below_eq_of_sorted rfl (by decide)
  rw [Project.answer_folderEntities, Project.answer_folderEntities,
    Project.files_eq_of_below hbelow, Project.files_eq_of_below hbelow]
  decide +kernel

/-- The workspace after the folder is saved. -/
def Workspace.lwcSaved : Workspace :=
  { Workspace.lwcFolder with config := .file (Text.toBytes "[scan]\ndefault_folder = \"lwc\"\n") }

/-- A folder that is given with blanks around it is not found.  After it is saved it is. -/
theorem classes_of_blank_folder :
    (Workspace.lwcFolder.run ["config", "set-folder", " lwc "]).failure = none ∧
      (Workspace.lwcFolder.run ["classes", " lwc "]).console.results =
        ["No classes found in folder ' lwc '"] ∧
      ((Workspace.lwcFolder.run ["config", "set-folder", " lwc "]).workspace.run
        ["classes"]).console.results = [] := by
  have hsaved : Workspace.lwcFolder.run ["config", "set-folder", " lwc "] =
      ⟨none, .lwcSaved, { results := ["Default folder set to 'lwc'."] }⟩ := rfl
  have hname : Running.isFolderName " lwc " = true := rfl
  have hgiven : Workspace.lwcFolder.chosen? ["classes", " lwc "] =
      some (.classes (some " lwc ") ⟨.relative, []⟩) := rfl
  have homitted : Workspace.lwcSaved.chosen? ["classes"] =
      some (.classes none ⟨.relative, []⟩) := rfl
  have hbefore : Workspace.lwcFolder.settings = .ok {} := rfl
  have hafter : Workspace.lwcSaved.settings = .ok (({} : Settings).withDefaultFolder "lwc") := rfl
  obtain ⟨hfound, hnone⟩ := folderEntities_lwcFolder
  rw [hsaved]
  refine ⟨rfl, ?_, ?_⟩
  · rw [run_given hname hgiven, hbefore]
    show [] ++ listedLines " lwc " (((Workspace.lwcFolder.project ⟨.relative, []⟩ {}).folderEntities
      " lwc ").run {}).1 = _
    rw [hnone]
    rfl
  · rw [run_omitted homitted, hafter]
    show [] ++ listedLines "lwc" (((Workspace.lwcFolder.project ⟨.relative, []⟩
      (({} : Settings).withDefaultFolder "lwc")).folderEntities "lwc").run {}).1 = _
    rw [folderEntities_withDefaultFolder]
    cases hentities : (((Workspace.lwcFolder.project ⟨.relative, []⟩ {}).folderEntities
        "lwc").run {}).1 with
    | nil =>
        rw [hentities] at hfound
        cases hfound
    | cons entity entities => rfl

end Cli

end Lineage
