import Lineage.Proofs.Cli.Effects
import Lineage.Proofs.Tags.Commands
import Lineage.Proofs.Tags.Templates

/-!
# Tags counted

The groups of some usages part them: each usage is in one group, that of its name, and no group is
empty.  So the sizes of the groups add up to the number of usages.  This is where the list of tags
has its numbers from, and what it counts comes from a scan that reads every file of markup once.
The usages it lists add up to those that the scan has found, and the files it counts for a tag are
the files of markup in whose text the tag is found, since no two of these have the same path.

## Main results

* `parts_groups`: the groups of usages part them.
* `length_firstsBy_file`: the files of a group are the files of markup that have its name.
* `tallies_run_listTags`: what the list of tags counts, for every project.
-/

namespace Lineage

namespace TagUsage

/-! ## Parting usages -/

/-- The groups part the usages by name: they are those of the distinct names, as these are first
met, each has the usages of its name in their order, and there is at least one.  Every usage is in
the groups as often as it was there before. -/
structure Parts (usages : List TagUsage) (parted : List (String × List TagUsage)) : Prop where
  names : FirstsOf (parted.map Prod.fst) (usages.map name)
  group_eq : ∀ group ∈ parted, group.2 = ofName group.1 usages
  ne_nil : ∀ group ∈ parted, group.2 ≠ []
  perm : (parted.flatMap Prod.snd).Perm usages

/-- Putting a usage into its group adds it to what the groups hold. -/
theorem perm_addToGroups (usage : TagUsage) (parted : List (String × List TagUsage)) :
    ((addToGroups usage parted).flatMap Prod.snd).Perm (usage :: parted.flatMap Prod.snd) := by
  induction parted with
  | nil => exact .refl _
  | cons first parted ih =>
      obtain ⟨name, group⟩ := first
      rw [addToGroups]
      split
      · rw [List.flatMap_cons, List.flatMap_cons, List.append_assoc]
        exact List.perm_middle
      · rw [List.flatMap_cons, List.flatMap_cons]
        exact (ih.append_left group).trans List.perm_middle

/-- The groups hold the usages, each as often as it is there. -/
theorem perm_groups (usages : List TagUsage) :
    ((groups usages).flatMap Prod.snd).Perm usages := by
  induction usages using List.reverseRecOn with
  | nil => exact .refl _
  | append_singleton usages usage ih =>
      have hstep : groups (usages ++ [usage]) = addToGroups usage (groups usages) := by
        rw [groups, groups, List.foldl_append]
        rfl
      rw [hstep]
      refine (perm_addToGroups usage _).trans ?_
      exact (ih.cons usage).trans (List.perm_append_singleton usage usages).symm

/-- The groups of usages part them. -/
theorem parts_groups (usages : List TagUsage) : Parts usages (groups usages) where
  names := by
    rw [groups_eq, List.map_map]
    show FirstsOf ((firstsBy id (usages.map name)).map id) (usages.map name)
    rw [List.map_id]
    exact firstsOf_firstsBy_id _
  group_eq group hgroup := (mem_groups_iff.mp hgroup).2
  ne_nil group hgroup := by
    obtain ⟨hname, heq⟩ := mem_groups_iff.mp hgroup
    rw [heq]
    exact fun hnone => ofName_eq_nil_iff.mp hnone hname
  perm := perm_groups usages

/-- Where usages are parted, the sizes of the groups add up to their number. -/
theorem Parts.sum_length {usages : List TagUsage} {parted : List (String × List TagUsage)}
    (h : Parts usages parted) : (parted.map fun group => group.2.length).sum = usages.length := by
  rw [← h.perm.length_eq, List.length_flatMap]

end TagUsage

/-! ## Files with a tag -/

namespace Project

variable {project : Project} {memory : Memory} {name : String}

/-- The files of markup in whose text a tag of this name is found. -/
def markupWith (project : Project) (memory : Memory) (name : String) : List Path :=
  ((project.files project.settings.markupExtensions none).map SourceFile.path).filter fun path =>
    name ∈ (project.markupIn memory path).map TagUsage.name

/-- The path is that of a file of markup that can be read, and in its text a tag of this name is
found. -/
def HasTag (project : Project) (memory : Memory) (name : String) (path : Path) : Prop :=
  (∃ file ∈ project.files project.settings.markupExtensions none, file.path = path) ∧
    ∃ text, project.view memory path = .ok text ∧
      ∃ usage ∈ TagUsage.inMarkup text project.settings.tagPrefix (some path), usage.name = name

theorem mem_markupWith_iff {path : Path} :
    path ∈ project.markupWith memory name ↔ project.HasTag memory name path := by
  rw [markupWith, List.mem_filter, List.mem_map, decide_eq_true_iff, List.mem_map, HasTag, markupIn]
  refine and_congr_right fun _ => ?_
  cases project.view memory path <;> simp

theorem nodup_markupWith (project : Project) (memory : Memory) (name : String) :
    (project.markupWith memory name).Nodup :=
  (project.nodup_paths_files _ _).filter _

/-- The usages of a name that the project has are in the files of markup that have it. -/
theorem mem_files_ofName_iff {file : Option Path} :
    file ∈ (TagUsage.ofName name (project.tags.run memory).1).map TagUsage.file ↔
      file ∈ (project.markupWith memory name).map some := by
  rw [answer_tags_eq_flatMap, List.mem_map, List.mem_map]
  constructor
  · rintro ⟨usage, husage, rfl⟩
    rw [TagUsage.ofName, List.mem_filter, List.mem_flatMap, decide_eq_true_iff] at husage
    obtain ⟨⟨path, hpath, hmarkup⟩, hname⟩ := husage
    refine ⟨path, ?_, (file_of_mem_markupIn hmarkup).symm⟩
    rw [markupWith, List.mem_filter, decide_eq_true_iff]
    exact ⟨hpath, List.mem_map.mpr ⟨usage, hmarkup, hname⟩⟩
  · rintro ⟨path, hpath, rfl⟩
    rw [markupWith, List.mem_filter, decide_eq_true_iff] at hpath
    obtain ⟨usage, hmarkup, hname⟩ := List.mem_map.mp hpath.2
    refine ⟨usage, ?_, file_of_mem_markupIn hmarkup⟩
    rw [TagUsage.ofName, List.mem_filter, List.mem_flatMap, decide_eq_true_iff]
    exact ⟨⟨path, hpath.1, hmarkup⟩, hname⟩

/-- The distinct files of the usages of a name are as many as the files of markup that have it. -/
theorem length_firstsBy_file :
    (firstsBy id ((TagUsage.ofName name (project.tags.run memory).1).map TagUsage.file)).length =
      (project.markupWith memory name).length := by
  have hnodup : ((project.markupWith memory name).map some).Nodup :=
    (project.nodup_markupWith memory name).map (Option.some_injective _)
  have hperm : (firstsBy id ((TagUsage.ofName name (project.tags.run memory).1).map
      TagUsage.file)).Perm ((project.markupWith memory name).map some) := by
    refine (List.perm_ext_iff_of_nodup (firstsBy_id_nodup _) hnodup).mpr fun file => ?_
    rw [mem_firstsBy_id, mem_files_ofName_iff]
  rw [hperm.length_eq, List.length_map]

end Project

/-! ## The list of tags -/

namespace Cli

/-- A row of the list of tags: a name, the number of its usages, and of the files they are in. -/
structure Tally where
  name : String
  usages : Nat
  files : Nat
  deriving Repr, DecidableEq

/-- The cells of the row. -/
def Tally.row (tally : Tally) : List String := [tally.name, tally.usages.repr, tally.files.repr]

open Running in
/-- The tallies count the tags of a project.  There is one for each name, as the scan first meets
them.  It has the number of the usages of that name, which together are the usages found by the
scan, and the number of the files of markup in whose text the name is found. -/
structure Counts (project : Project) (tallies : List Tally) : Prop where
  names : FirstsOf (tallies.map Tally.name) ((usagesFound project).map TagUsage.name)
  usages : ∀ tally ∈ tallies,
    tally.usages = (TagUsage.ofName tally.name (usagesFound project)).length
  sum_usages : (tallies.map Tally.usages).sum = (usagesFound project).length
  files : ∀ tally ∈ tallies, ∃ paths : List Path, paths.Nodup ∧
    (∀ path, path ∈ paths ↔ project.HasTag {} tally.name path) ∧ tally.files = paths.length

/-- The tally of a group. -/
def tallyOf (group : String × List TagUsage) : Tally :=
  ⟨group.1, group.2.length, (firstsBy id (group.2.map TagUsage.file)).length⟩

namespace Running

/-- Groups that part the usages of a project give the tallies of its tags. -/
theorem counts_of_parts {project : Project} {parted : List (String × List TagUsage)}
    (h : TagUsage.Parts (usagesFound project) parted) :
    Counts project (parted.map tallyOf) where
  names := by
    rw [List.map_map]
    exact h.names
  usages := by
    intro tally htally
    obtain ⟨group, hgroup, rfl⟩ := List.mem_map.mp htally
    exact congrArg List.length (h.group_eq group hgroup)
  sum_usages := by
    rw [List.map_map]
    exact h.sum_length
  files := by
    intro tally htally
    obtain ⟨group, hgroup, rfl⟩ := List.mem_map.mp htally
    refine ⟨project.markupWith {} group.1, project.nodup_markupWith _ _,
      fun path => Project.mem_markupWith_iff, ?_⟩
    show (firstsBy id (group.2.map TagUsage.file)).length = _
    rw [h.group_eq group hgroup]
    exact Project.length_firstsBy_file

variable {workspace : Workspace} {settings : Settings} {root : Path} {least : Level}

/-- Where settings hold, the tags are listed. -/
theorem answer_listTags (hsettings : workspace.Follows settings) :
    ((listTags root).run.run { workspace, least }).1 = .ok () := by
  obtain ⟨after, hproject, -, -⟩ := @run_project { workspace, least } settings root hsettings
  simp only [listTags, run_run_bind, hproject, run_scan]
  split <;> rfl

end Running

/-- The groups of any usages part them.  So a command line that lists the tags of a project succeeds
where settings hold, and the rows it shows count those tags. -/
theorem tallies_run_listTags :
    (∀ usages, TagUsage.Parts usages (TagUsage.groups usages)) ∧
      ∀ {workspace : Workspace} {arguments : List String} {root : Path} {settings : Settings},
        workspace.chosen? arguments = some (.listTags root) → workspace.Follows settings →
          (workspace.run arguments).failure = none ∧
            ∃ tallies, (workspace.run arguments).console.rows = tallies.map Tally.row ∧
              Counts (workspace.project root settings) tallies := by
  refine ⟨TagUsage.parts_groups, ?_⟩
  intro workspace arguments root settings hchosen hsettings
  have hrun := Workspace.run_of_chosen hchosen
  refine ⟨?_, _, ?_, Running.counts_of_parts (TagUsage.parts_groups _)⟩
  · rw [hrun]
    exact congrArg failureOf (Running.answer_listTags hsettings)
  · rw [hrun, List.map_map]
    exact Running.rows_listTags hsettings

/-- A workspace with two files of markup, and a file of code that names a tag. -/
def Workspace.tagInTwoFiles : Workspace where
  store :=
    { entries := [(["p"], .directory),
        (["p", "a.html"], .file "<c-x></c-x>\n<c-y><c-x>".toUTF8.toList),
        (["p", "b.html"], .file "<c-x>".toUTF8.toList),
        (["p", "d.js"], .file "<c-x>".toUTF8.toList)] }
  current := ⟨.root, ["p"]⟩
  configPath := ⟨.root, ["config.toml"]⟩

theorem Workspace.below_tagInTwoFiles :
    (Workspace.tagInTwoFiles.project ⟨.relative, []⟩ {}).store.below ⟨.root, ["p"]⟩ =
      [⟨.root, ["p", "a.html"]⟩, ⟨.root, ["p", "b.html"]⟩, ⟨.root, ["p", "d.js"]⟩] :=
  Store.below_eq_of_sorted rfl (by decide)

/-- One tag is used three times in two of the files, another one once. -/
theorem tallies_run_listTags_tagInTwoFiles :
    Workspace.tagInTwoFiles.chosen? ["tags", "list"] = some (.listTags ⟨.relative, []⟩) ∧
      (Workspace.tagInTwoFiles.run ["tags", "list"]).failure = none ∧
      (Workspace.tagInTwoFiles.run ["tags", "list"]).console.rows =
        [["x", "3", "2"], ["y", "1", "1"]] ∧
      ∃ tallies,
        (Workspace.tagInTwoFiles.run ["tags", "list"]).console.rows = tallies.map Tally.row ∧
        Counts (Workspace.tagInTwoFiles.project ⟨.relative, []⟩ {}) tallies := by
  have hchosen : Workspace.tagInTwoFiles.chosen? ["tags", "list"] =
      some (.listTags ⟨.relative, []⟩) := rfl
  have hsettings : Workspace.tagInTwoFiles.Follows {} := rfl
  have hrows : (Workspace.tagInTwoFiles.run ["tags", "list"]).console.rows =
      [["x", "3", "2"], ["y", "1", "1"]] := by
    rw [Workspace.run_of_chosen hchosen]
    refine (Running.rows_listTags hsettings).trans ?_
    rw [Running.usagesFound, Project.answer_tags_eq_flatMap,
      Project.files_eq_of_below Workspace.below_tagInTwoFiles]
    decide +kernel
  obtain ⟨-, hlist⟩ := tallies_run_listTags
  obtain ⟨hended, htallies⟩ := hlist hchosen hsettings
  exact ⟨hchosen, hended, hrows, htallies⟩

end Cli

end Lineage
