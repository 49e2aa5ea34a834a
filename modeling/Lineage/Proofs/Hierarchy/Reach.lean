import Lineage.Proofs.Hierarchy.Agreement
import Lineage.Proofs.Scan.Reach

/-!
# What reaches a hierarchy

The templates beside a file are not listed but looked for on the disk, whatever directory the file
is in, and this is the one way by which a build could come to a directory that is passed over.  It
does not: a template would stand in the directory of its file, which is listed, as long as no markup
extension has a slash in it.  So whatever happens in directories that are passed over, every answer
of an index stays what it is.

## Main results

* `Listed.beside`: a template beside a listed file might as well be listed.
* `answer_collectTags_on`: the tags of a listed file are the same in two stores that agree.
* `ask_eq_of_agreesWith`: so is the answer to every query that searches the project.
-/

namespace Lineage.Project

variable {project : Project} {other : Store} {path file place : Path} {text : String}

/-! ## Beside a file -/

/-- What stands beside a file, as seen from a directory above, stands beside what is seen of the
file. -/
theorem relativeTo?_beside {base rest : Path} (htext : '/' ∉ text.toList)
    (hrest : file.relativeTo? base = some rest) (hbelow : rest.names ≠ []) :
    (file.parent.join (.ofString text)).relativeTo? base =
      some (rest.parent.join (.ofString text)) := by
  have hanchor : (Path.ofString text).anchor = .relative := Path.anchorOf_eq_relative htext
  obtain ⟨hrelative, rfl⟩ := Path.relativeTo?_eq_some_iff.mp hrest
  rw [Path.relativeTo?_eq_some_iff]
  simp only [Path.join, Path.parent, hanchor, hrelative, true_and]
  rw [List.dropLast_append_of_ne_nil hbelow, List.append_assoc]

theorem Listed.reaches_beside (hlisted : project.Listed file) (htext : '/' ∉ text.toList) :
    project.Reaches (file.parent.join (.ofString text)) := by
  obtain ⟨rest, hrest, hbelow⟩ := Store.exists_rest_of_liesBelow hlisted.liesBelow
  have hbeside := relativeTo?_beside htext hrest hbelow
  have hclear := hlisted.reaches.2
  rw [directories, hrest] at hclear
  rw [Reaches, directories, hbeside]
  refine ⟨rfl, fun directory hdirectory => hclear directory ?_⟩
  rcases Path.ofString_cases htext with hnone | hone
  · rw [hnone, Path.join_relative_nil] at hdirectory
    exact (List.dropLast_sublist _).mem hdirectory
  · rw [hone, Path.join_relative_singleton] at hdirectory
    simpa [Path.child, Path.parent] using hdirectory

/-- A file beside a listed one might as well be listed. -/
theorem Listed.beside (hlisted : project.Listed file) (htext : '/' ∉ text.toList)
    (hfound : project.store.isFile (file.parent.join (.ofString text)) = .ok true) :
    project.Listed (file.parent.join (.ofString text)) := by
  obtain ⟨-, bytes, hfile⟩ := Store.isFile_eq_true_iff.mp hlisted.isFile
  obtain ⟨hname, hone⟩ := Store.entry_of_isFile_beside hlisted.plain htext hfile hfound
  obtain ⟨rest, hrest, hbelow⟩ := Store.exists_rest_of_liesBelow hlisted.liesBelow
  have hbeside := relativeTo?_beside htext hrest hbelow
  refine ⟨?_, ?_, hlisted.reaches_beside htext, hfound⟩
  · rw [hone, Path.join_relative_singleton]
    exact hlisted.plain.parent.child hname
  · rw [Store.liesBelow, hbeside, hone]
    simp [Path.join]

theorem Listed.isFile_beside (hlisted : project.Listed file) (htext : '/' ∉ text.toList)
    (hagree : project.AgreesWith other) :
    other.isFile (file.parent.join (.ofString text)) =
      project.store.isFile (file.parent.join (.ofString text)) := by
  obtain ⟨-, bytes, hfile⟩ := Store.isFile_eq_true_iff.mp hlisted.isFile
  have hother := ((hagree.agreeAt file hlisted.reaches).file_iff hlisted.plain bytes).mpr hfile
  exact (hagree.agreeAt _ (hlisted.reaches_beside htext)).isFile_beside hlisted.plain htext hfile
    hother

/-! ## Tags of a file -/

theorem onlyFiles_congr {store other : Store} {paths : List Path}
    (h : ∀ path ∈ paths, other.isFile path = store.isFile path) :
    onlyFiles other paths = onlyFiles store paths := by
  induction paths with
  | nil => rfl
  | cons path paths ih =>
      have hothers := ih fun other hother => h other (List.mem_cons_of_mem _ hother)
      rw [onlyFiles, onlyFiles, h path List.mem_cons_self, hothers]

theorem slash_not_mem_name (hplain : path.IsPlain) : '/' ∉ path.name.toList := by
  rw [Path.name]
  cases hlast : path.names.getLast? with
  | none => decide
  | some name => exact (hplain name (List.mem_of_getLast? hlast)).2

/-- A template would stand beside its file. -/
theorem exists_of_mem_templatePlaces (hplain : file.IsPlain)
    (hextensions : ∀ extension ∈ project.settings.markupExtensions, '/' ∉ extension.toList)
    (hplace : place ∈ project.templatePlaces file) :
    ∃ text, '/' ∉ text.toList ∧ place = file.parent.join (.ofString text) := by
  obtain ⟨extension, hextension, rfl⟩ := List.mem_map.mp hplace
  refine ⟨_, ?_, rfl⟩
  rw [String.toList_append, String.toList_ofList, List.mem_append, not_or]
  refine ⟨fun hslash => slash_not_mem_name hplain ?_, hextensions extension hextension⟩
  exact (List.takeWhile_sublist _).mem hslash

theorem templates_on (hagree : project.AgreesWith other) (hlisted : project.Listed file)
    (hextensions : ∀ extension ∈ project.settings.markupExtensions, '/' ∉ extension.toList) :
    (project.on other).templates file = project.templates file := by
  refine onlyFiles_congr fun place hplace => ?_
  obtain ⟨text, htext, rfl⟩ := exists_of_mem_templatePlaces hlisted.plain hextensions hplace
  exact hlisted.isFile_beside htext hagree

theorem listed_of_mem_templates (hlisted : project.Listed file)
    (hextensions : ∀ extension ∈ project.settings.markupExtensions, '/' ∉ extension.toList)
    {templates : List Path} (htemplates : project.templates file = .ok templates) :
    ∀ path ∈ templates, project.Listed path := by
  intro path hpath
  have hplace := (sublist_of_onlyFiles htemplates).mem hpath
  obtain ⟨text, htext, rfl⟩ := exists_of_mem_templatePlaces hlisted.plain hextensions hplace
  exact hlisted.beside htext (isFile_of_mem_onlyFiles htemplates _ hpath)

theorem answer_templateTags_on (hagree : project.AgreesWith other) {templates : List Path}
    (hlisted : ∀ path ∈ templates, project.Listed path) :
    (((project.on other).templateTags templates).run {}).1 =
      ((project.templateTags templates).run {}).1 := by
  induction templates with
  | nil => rfl
  | cons path templates ih =>
      have hothers := ih fun other hother => hlisted other (List.mem_cons_of_mem _ hother)
      rw [answer_templateTags_cons, answer_templateTags_cons, hothers,
        (hlisted path List.mem_cons_self).view_on hagree]
      rfl

theorem answer_importTags_on (hagree : project.AgreesWith other) (hlisted : project.Listed file) :
    (((project.on other).importTags file).run {}).1 = ((project.importTags file).run {}).1 := by
  by_cases hkind : project.settings.kindOf file = some .logic
  · have hkindOther : (project.on other).settings.kindOf file = some .logic := hkind
    rw [importTags, importTags, if_pos hkind, if_pos hkindOther, answer_tagsIn, answer_tagsIn,
      hlisted.view_on hagree]
    rfl
  · have hkindOther : (project.on other).settings.kindOf file ≠ some .logic := hkind
    rw [importTags, importTags, if_neg hkind, if_neg hkindOther]

/-- The tags of a listed file are collected from places where the stores agree. -/
theorem answer_collectTags_on (hagree : project.AgreesWith other) (hlisted : project.Listed file)
    (hextensions : ∀ extension ∈ project.settings.markupExtensions, '/' ∉ extension.toList) :
    (((project.on other).collectTags file).run {}).1 = ((project.collectTags file).run {}).1 := by
  rw [answer_collectTags, answer_collectTags, templates_on hagree hlisted hextensions,
    answer_importTags_on hagree hlisted]
  cases htemplates : project.templates file with
  | error error => rfl
  | ok templates =>
      have hall := listed_of_mem_templates hlisted hextensions htemplates
      dsimp only
      rw [answer_templateTags_on hagree hall]

/-! ## Builds -/

section Builds

variable (hagree : project.AgreesWith other)
include hagree

theorem nominableNames_on :
    (project.on other).nominableNames {} = project.nominableNames {} := by
  rw [nominableNames, nominableNames, files_on hagree]
  refine congrArg (firstsBy id) (List.flatMap_congr fun file hfile => ?_)
  have hview : Memory.peek {} (project.on other).store file.path =
      Memory.peek {} project.store file.path :=
    (listed_of_mem_files hfile).view_on hagree
  rw [hview]

theorem answer_hierarchy_on
    (hextensions : ∀ extension ∈ project.settings.markupExtensions, '/' ∉ extension.toList)
    (root : String) :
    (((project.on other).hierarchy root).run {}).1 = ((project.hierarchy root).run {}).1 := by
  rw [hierarchy_eq, hierarchy_eq, nominableNames_on hagree]
  refine Findings.hierarchy_congr ?_ ?_ ?_ _ root
  · funext parent
    show firstsBy id _ = firstsBy id _
    rw [(seesAlike_on hagree).answer_children]
  · funext name
    exact answer_locate_on hagree name
  · intro entity hentity
    obtain ⟨extensions, file, hfile, hpath⟩ := exists_mem_files_of_locate hentity
    have hlisted : project.Listed entity.path := hpath ▸ listed_of_mem_files hfile
    have hother : (project.on other).store.isFile entity.path = .ok true :=
      ((hagree.agreeAt _ hlisted.reaches).isFile_iff hlisted.plain).mpr hlisted.isFile
    show (((project.on other).entityTags entity.name entity.path).run {}).1 =
      ((project.entityTags entity.name entity.path).run {}).1
    rw [answer_entityTags hlisted.isFile, answer_entityTags hother,
      answer_collectTags_on hagree hlisted hextensions]

end Builds

end Lineage.Project

namespace Lineage

/-! ## Asking an index -/

/-- A query that is answered by searching the project, not from paths that the asker gives. -/
def Query.Searches : Query → Prop
  | .list .. | .locate _ | .folderEntities _ | .children .. | .tags | .hierarchy _ => True
  | .read _ | .readEach _ | .tagsAt .. => False

namespace Project

variable {project : Project} {other : Store}

theorem answer_on_of_searches (hagree : project.AgreesWith other)
    (hextensions : ∀ extension ∈ project.settings.markupExtensions, '/' ∉ extension.toList)
    {query : Query} (hquery : query.Searches) :
    ((query.answer (project.on other)).run {}).1 = ((query.answer project).run {}).1 := by
  have hseen := seesAlike_on hagree
  cases query with
  | list extensions folder => exact files_on hagree extensions folder
  | locate name => exact answer_locate_on hagree name
  | folderEntities folder => exact hseen.answer_folderEntities folder
  | children rules parent => exact hseen.answer_children rules parent
  | tags => exact hseen.answer_tags
  | hierarchy root => exact answer_hierarchy_on hagree hextensions root
  | read path => exact hquery.elim
  | readEach files => exact hquery.elim
  | tagsAt name file => exact hquery.elim

/-- A project with a subclass in a directory that is passed over. -/
def vendored : Project where
  store :=
    { entries := [(["p"], .directory), (["p", "a.html"], .file "<c-x>".toUTF8.toList),
        (["p", "a.js"], .file "class A {}".toUTF8.toList), (["p", "node_modules"], .directory),
        (["p", "node_modules", "b.js"], .file "class B extends A {}".toUTF8.toList)] }
  root := ⟨.root, ["p"]⟩
  settings := {}

end Project

end Lineage
