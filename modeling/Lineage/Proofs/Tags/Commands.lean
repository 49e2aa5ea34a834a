import Lineage.Proofs.Cli.Sessions
import Lineage.Proofs.Scan.Answers
import Lineage.Proofs.Tags.Groups
import Lineage.Proofs.Tags.Names

/-!
# Listing and showing tags

One command lists the custom tags of a project with the numbers of their usages and files, another
shows every usage of one tag.  Both scan the project from scratch and group what they find by name,
so they agree as far as the text that the second is given stands for the name that the first has
listed.  A name does so itself unless it starts with the prefix and a hyphen, and then it can still
be given as the tag in full.

## Main results

* `rows_listTags`, `run_showTag`: what the two commands show, in terms of one scan.
* `showTag_of_mem_rows`: the usages that are shown are those that are counted.
-/

namespace Lineage.Cli

/-! ## Sessions -/

/-- The rows of all tables on a console. -/
def Console.rows (console : Console) : List (List String) :=
  console.pictures.flatMap fun picture =>
    match picture with
    | .grid grid => grid.rows
    | .tree _ => []

theorem Console.rows_draw (console : Console) (grid : Grid) :
    { console with pictures := console.pictures ++ [Picture.grid grid] : Console }.rows =
      console.rows ++ grid.rows := by
  simp [rows]

theorem Console.rows_report (console : Console) (least : Level) (notices : Array Notice) :
    (console.report least notices).rows = console.rows := rfl

/-- The settings that hold in a workspace. -/
def Workspace.Follows (workspace : Workspace) (settings : Settings) : Prop :=
  ((Config.loadSettings).run.run workspace.configState).1 = .ok settings

namespace Running

open Lexical.Tag

/-- A session that a project was opened in has shown nothing by that. -/
theorem run_project {session : Session} {settings : Settings} (root : Path)
    (hsettings : session.workspace.Follows settings) :
    ∃ after, (project root).run.run session =
        (.ok (session.workspace.project root settings), after) ∧
      after.console.results = session.console.results ∧
      after.console.pictures = session.console.pictures := by
  obtain ⟨after, hrun, hstore, hcurrent, hresults, hpictures⟩ := run_configure hsettings
  refine ⟨after, ?_, hresults, hpictures⟩
  rw [project, run_run_bind, hrun]
  simp only
  rw [Workspace.project, ← hstore, ← hcurrent]
  rfl

/-! ## The two commands -/

/-- The row of the list for the usages of a name. -/
def listRow (name : String) (group : List TagUsage) : List String :=
  [name, group.length.repr, (firstsBy id (group.map TagUsage.file)).length.repr]

/-- The usages that a scan of a project finds, on the way to the list or to one of its tags. -/
def usagesFound (project : Project) : List TagUsage := (project.tags.run {}).1

variable {workspace : Workspace} {settings : Settings} {root : Path} {least : Level}

theorem rows_listTags (hsettings : workspace.Follows settings) :
    ((listTags root).run.run { workspace, least }).2.console.rows =
      (TagUsage.groups (usagesFound (workspace.project root settings))).map fun (name, group) =>
        listRow name group := by
  obtain ⟨after, hproject, -, hpictures⟩ :=
    @run_project { workspace, least } settings root hsettings
  have hnothing : after.console.rows = [] := by
    rw [Console.rows, hpictures]
    rfl
  simp only [listTags, run_run_bind, hproject, run_scan]
  split
  · next hnone =>
      rw [usagesFound, hnone]
      exact hnothing
  · next hsome =>
      rw [run_draw, Console.rows_draw, Console.rows_report, hnothing]
      rfl

theorem run_showTag {name tag : String} (hsettings : workspace.Follows settings)
    (htag : tagNameOf settings.tagPrefix tag = name)
    (hname : name ∈ (usagesFound (workspace.project root settings)).map TagUsage.name) :
    ((showTag tag root).run.run { workspace, least }).1 = .ok () ∧
      ((showTag tag root).run.run { workspace, least }).2.console.results =
        (TagUsage.ofName name (usagesFound (workspace.project root settings))).map
          (usageLine (workspace.project root settings).root) := by
  obtain ⟨after, hproject, hresults, -⟩ :=
    @run_project { workspace, least } settings root hsettings
  have hgroup : (Keyed.get? name (TagUsage.groups
      (usagesFound (workspace.project root settings)))).getD [] =
      TagUsage.ofName name (usagesFound (workspace.project root settings)) := by
    rw [TagUsage.get?_groups, if_pos hname]
    rfl
  have hsame : (workspace.project root settings).settings.tagPrefix = settings.tagPrefix := rfl
  simp only [showTag, run_run_bind, hproject, run_scan]
  rw [hsame, htag, ← usagesFound, hgroup]
  split
  · next hnone => exact absurd hname (TagUsage.ofName_eq_nil_iff.mp hnone)
  · next hsome =>
      rw [run_forM_say]
      refine ⟨rfl, ?_⟩
      simp [Console.report, hresults]

/-- A usage that is found is named by an identifier. -/
theorem isIdentText_name_of_mem_usagesFound {project : Project} {usage : TagUsage}
    (hplain : IsPlainPrefix project.settings.tagPrefix) (h : usage ∈ usagesFound project) :
    IsIdentText usage.name := by
  obtain ⟨file, text, -, -, hmarkup⟩ := Project.mem_tags_iff.mp h
  obtain ⟨⟨number, line⟩, -, honLine⟩ := List.mem_flatMap.mp hmarkup
  obtain ⟨tag, htag, rfl⟩ := List.mem_map.mp honLine
  exact isIdentText_name_of_mem_findAll hplain htag

/-! ## Their agreement -/

/-- A text by which a tag of the prefix can be asked for: its name, unless that looks like a tag
with its prefix, the name with the prefix before it, or the tag in full. -/
def AsksFor (tagPrefix name text : String) : Prop :=
  (text = name ∧ ¬ (tagPrefix ++ "-").toList <+: name.toList) ∨
    text = tagPrefix ++ "-" ++ name ∨ text = Lexical.Tag.format tagPrefix name

theorem tagNameOf_of_asksFor {tagPrefix name text : String} (hplain : IsPlainPrefix tagPrefix)
    (hname : IsIdentText name) (h : AsksFor tagPrefix name text) :
    tagNameOf tagPrefix text = name := by
  obtain ⟨rfl, hfree⟩ | rfl | rfl := h
  · exact tagNameOf_of_not_prefix hname hfree
  · exact tagNameOf_qualified hplain hname
  · exact tagNameOf_format hplain hname

/-- For each row of the list there are usages of that number, in files of that number, and whoever
asks for the tag is shown a line for each of them, in the order of the scan. -/
theorem showTag_of_mem_rows {name usages files : String} (hsettings : workspace.Follows settings)
    (haccepted : isTagPrefix settings.tagPrefix = true)
    (hrow : [name, usages, files] ∈
      ((listTags root).run.run { workspace, least }).2.console.rows) :
    ∃ group, group = TagUsage.ofName name (usagesFound (workspace.project root settings)) ∧
      usages = group.length.repr ∧
      files = (firstsBy id (group.map TagUsage.file)).length.repr ∧
      ∀ tag, AsksFor settings.tagPrefix name tag →
        ((showTag tag root).run.run { workspace, least }).1 = .ok () ∧
        ((showTag tag root).run.run { workspace, least }).2.console.results =
          group.map (usageLine (workspace.project root settings).root) := by
  rw [rows_listTags hsettings] at hrow
  obtain ⟨⟨listed, group⟩, hgroup, hcells⟩ := List.mem_map.mp hrow
  obtain ⟨rfl, rfl, rfl⟩ : listed = name ∧ group.length.repr = usages ∧
      (firstsBy id (group.map TagUsage.file)).length.repr = files := by
    simpa [listRow] using hcells
  obtain ⟨hname, rfl⟩ := TagUsage.mem_groups_iff.mp hgroup
  refine ⟨_, rfl, rfl, rfl, ?_⟩
  intro tag htag
  have hplain : IsPlainPrefix settings.tagPrefix := isPlainPrefix_of_isTagPrefix haccepted
  have hident : IsIdentText listed := by
    obtain ⟨usage, husage, rfl⟩ := List.mem_map.mp hname
    exact isIdentText_name_of_mem_usagesFound hplain husage
  exact run_showTag hsettings (tagNameOf_of_asksFor hplain hident htag) hname

end Running

/-- A workspace with one file, where one tag is named like another with its prefix. -/
def Workspace.doubled : Workspace where
  store :=
    { entries := [(["p"], .directory), (["p", "a.html"],
        .file "<c-c-card>\n<c-card>\n<c-c-card>\n".toUTF8.toList)] }
  current := ⟨.root, ["p"]⟩
  configPath := ⟨.root, ["config.toml"]⟩

namespace Running

/-- Both tags are listed; the second is shown by its name, the first by the tag in full. -/
theorem showTag_of_mem_rows_doubled :
    ["card", "1", "1"] ∈
        ((listTags ⟨.relative, []⟩).run.run { workspace := .doubled }).2.console.rows ∧
      ((showTag "card" ⟨.relative, []⟩).run.run { workspace := .doubled }).2.console.results =
        ["a.html:2  <c-card>"] ∧
      ["c-card", "2", "1"] ∈
        ((listTags ⟨.relative, []⟩).run.run { workspace := .doubled }).2.console.rows ∧
      ((showTag "<c-c-card>" ⟨.relative, []⟩).run.run
        { workspace := .doubled }).2.console.results =
        ["a.html:1  <c-c-card>", "a.html:3  <c-c-card>"] := by
  have hsettings : Workspace.doubled.Follows {} := rfl
  have hcard : ["card", "1", "1"] ∈
      ((listTags ⟨.relative, []⟩).run.run { workspace := .doubled }).2.console.rows := by
    decide +kernel
  have hdoubled : ["c-card", "2", "1"] ∈
      ((listTags ⟨.relative, []⟩).run.run { workspace := .doubled }).2.console.rows := by
    decide +kernel
  obtain ⟨_, rfl, -, -, hshow⟩ := showTag_of_mem_rows hsettings (by decide) hcard
  obtain ⟨_, rfl, -, -, hshowDoubled⟩ := showTag_of_mem_rows hsettings (by decide) hdoubled
  refine ⟨hcard, ?_, hdoubled, ?_⟩
  · rw [(hshow "card" (.inl ⟨rfl, by decide⟩)).2]
    decide +kernel
  · rw [(hshowDoubled "<c-c-card>" (.inr (.inr rfl))).2]
    decide +kernel

/-- Asked for by its name, the first tag is taken for the second. -/
theorem showTag_doubled_of_name :
    Workspace.doubled.Follows {} ∧ isTagPrefix ({} : Settings).tagPrefix = true ∧
      ["c-card", "2", "1"] ∈ (Workspace.doubled.run ["tags", "list"]).console.rows ∧
      (Workspace.doubled.run ["tags", "show", "c-card"]).console.results =
        ["a.html:2  <c-card>"] := by
  refine ⟨rfl, by decide, ?_, ?_⟩
  · decide +kernel
  · decide +kernel

end Running

end Lineage.Cli
