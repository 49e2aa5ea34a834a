import Lineage.Proofs.Hierarchy.Unfolding
import Lineage.Proofs.Scan.Kinds
import Lineage.RootChoice

/-!
# Names that are offered as roots

A hierarchy is asked for by a name, and the names come from listings: of the entities of a folder,
or of the classes in an open file.  They are gathered by one component and resolved by another.
Names are gathered as the words behind a keyword, in files found by the extensions of both kinds
together; they are resolved by a search for the one name, in files found by the extensions of one
kind.  This module shows that nothing falls between the two: what is offered can be built.

A file of code is also offered under its own name, which it need not declare.  That is the one offer
that may come to nothing.

## Main results

* `isSome_locate_of_mem_names`, `isSome_locate_stem`: what code declares and what markup is named
  like is located, in whatever listing the file was found.
* `hierarchyFor_eq_of_locate`: the first name to try is the root, if it is located.
* `offered_roots_resolve`: the entities of a folder are located, and an open file gives a hierarchy.
-/

namespace Lineage

/-! ## Stems -/

theorem Path.stem_ne_empty {path : Path} (hname : path.name ≠ "") : path.stem.isEmpty = false := by
  have hchars : path.name.toList ≠ [] := by
    rw [ne_eq, String.toList_eq_nil_iff]
    exact hname
  have hstem : (splitName path.name.toList).1 ≠ [] := by
    rw [splitName]
    split
    · split
      · exact hchars
      · exact List.reverse_ne_nil_iff.mpr (List.cons_ne_nil _ _)
    · exact hchars
  rw [Bool.eq_false_iff, ne_eq, String.isEmpty_iff, stem, ← String.toList_eq_nil_iff,
    String.toList_ofList]
  exact hstem

namespace Project

variable {project : Project} {memory later : Memory} {extensions : List String}
  {folder : Option String} {file : SourceFile} {name text : String}

theorem stem_ne_empty_of_mem_files (hfile : file ∈ project.files extensions folder) :
    file.path.stem.isEmpty = false := by
  obtain ⟨path, hpath, hsource⟩ := List.mem_filterMap.mp hfile
  obtain ⟨rfl, -⟩ := sourceFile?_eq_some_iff.mp hsource
  obtain ⟨hbelow, -⟩ := List.mem_filter.mp hpath
  obtain ⟨⟨entry, hentry⟩, -, hlies, -⟩ := Store.mem_below.mp hbelow
  obtain ⟨rest, hrest, hne⟩ := Store.exists_rest_of_liesBelow hlies
  obtain ⟨hrelative, hjoin⟩ := Path.relativeTo?_eq_some_iff.mp hrest
  have hnames : file.path.names ≠ [] := by
    rw [hjoin, Path.join, hrelative]
    exact List.append_ne_nil_of_right_ne_nil _ hne
  refine Path.stem_ne_empty ?_
  rw [Path.name, List.getLast?_eq_some_getLast hnames, Option.getD_some]
  exact (project.store.filed _ hentry _ (List.getLast_mem hnames)).ne_empty

/-! ## Locating what is offered -/

/-- A name that a listed file of code declares is located. -/
theorem isSome_locate_of_mem_names (hfile : file ∈ project.files extensions folder)
    (hkind : file.kind = .logic) (htext : project.view memory file.path = .ok text)
    (hname : name ∈ Lexical.Declaration.names text) :
    ((project.locate name).run memory).1.isSome = true := by
  have hlogic := mem_files_of_kind hfile
  rw [hkind] at hlogic
  obtain ⟨chars, hchars, rfl⟩ := List.mem_map.mp hname
  obtain ⟨lead, rest, found, hcut, hrule, rfl⟩ := Lexical.exists_of_mem_allMatches hchars
  exact isSome_locate_of_declaredIn hlogic hkind htext
    (Lexical.Declaration.declaredIn_of_nameAt? hcut hrule)

/-- What a listed file of markup is named like is located. -/
theorem isSome_locate_stem (hfile : file ∈ project.files extensions folder)
    (hkind : file.kind = .markup) :
    ((project.locate file.path.stem).run memory).1.isSome = true := by
  have hmarkup := mem_files_of_kind hfile
  rw [hkind] at hmarkup
  rw [answer_locate, stem_ne_empty_of_mem_files hfile, if_neg Bool.false_ne_true,
    Option.isSome_map, List.find?_isSome]
  refine ⟨file, List.mem_append_right _ hmarkup, ?_⟩
  rw [answer_declares, hkind]
  exact beq_self_eq_true _

/-- A name that is located has a hierarchy, whose root is named by it. -/
theorem exists_hierarchy_of_locate (h : ((project.locate name).run memory).1.isSome = true) :
    ∃ tree, ((project.hierarchy name).run memory).1 = some tree ∧ tree.name = name := by
  obtain ⟨path, hplace⟩ := Option.isSome_iff_exists.mp h
  have htree : ((project.hierarchy name).run memory).1 = some ((project.findings memory).tree
      ((project.nominableNames memory).length + 1) [] ⟨name, path⟩) := by
    have hfound : (project.findings memory).place name = some path := hplace
    rw [hierarchy_eq, Findings.hierarchy, hfound, Option.map_some]
  exact ⟨_, htree, Findings.name_tree _ _ _⟩

/-! ## The entities of a folder -/

/-- The entity is offered for no other reason than that a file of code is named like it. -/
def IsStemOnly (project : Project) (memory : Memory) (entity : Entity) : Prop :=
  project.settings.kindOf entity.path = some .logic ∧ entity.name = entity.path.stem ∧
    ∀ text, project.view memory entity.path = .ok text →
      entity.name ∉ Lexical.Declaration.names text

theorem isSome_locate_of_mem_folderEntities {name : String} {entity : Entity}
    (hentity : entity ∈ ((project.folderEntities name).run memory).1)
    (hdeclared : ¬ project.IsStemOnly memory entity) :
    ((project.locate entity.name).run memory).1.isSome = true := by
  rw [answer_folderEntities, mem_firstsBy_id, List.mem_flatMap] at hentity
  obtain ⟨⟨file, text⟩, hlegible, hoffer⟩ := hentity
  obtain ⟨hfile, htext⟩ := mem_legible_iff.mp hlegible
  dsimp only at hoffer
  rw [entitiesOf] at hoffer
  cases hkind : file.kind with
  | logic =>
      rw [hkind, List.mem_append, List.mem_map, List.mem_singleton] at hoffer
      rcases hoffer with ⟨name, hname, rfl⟩ | rfl
      · exact isSome_locate_of_mem_names hfile hkind htext hname
      · -- The file's own name is one that it declares; nothing else would speak for it otherwise.
        refine isSome_locate_of_mem_names hfile hkind htext ?_
        by_contra hname
        refine hdeclared ⟨?_, rfl, fun other hother => ?_⟩
        · rw [kindOf_of_mem_files hfile, hkind]
        · rw [htext] at hother
          cases hother
          exact hname
  | markup =>
      rw [hkind] at hoffer
      dsimp only at hoffer
      split at hoffer
      · rw [List.mem_singleton.mp hoffer]
        exact isSome_locate_stem hfile hkind
      · cases hoffer

/-! ## An open file -/

theorem composed_namesFor (path : Path) : Composed project (project.namesFor path) := by
  rw [namesFor]
  split
  · exact .pure _
  · exact .pure _
  · refine (Composed.read path).bind fun outcome => ?_
    cases outcome with
    | ok text => exact .pure _
    | error failure => exact .pure _

/-- If the first of the names to try is located, it is the root. -/
theorem hierarchyFor_eq_of_locate {path : Path} {others : List String}
    (hnames : ((project.namesFor path).run memory).1 = .ok (name :: others))
    (hlocated : ((project.locate name).run memory).1.isSome = true) :
    ∃ tree, ((project.hierarchyFor path none).run memory).1 = .ok (name :: others, some tree) ∧
      tree.name = name := by
  obtain ⟨tree, htree, hroot⟩ := exists_hierarchy_of_locate hlocated
  have hview : project.view ((project.namesFor path).run memory).2 = project.view memory :=
    (composed_namesFor path).steady.view_run memory
  rw [← (steady_hierarchy name).answer_eq _ _ hview] at htree
  have hfirst : ((project.firstHierarchy (name :: others)).run
      ((project.namesFor path).run memory).2).1 = some tree := by
    rw [firstHierarchy, Scan.run_bind, htree]
    rfl
  have hanswer : ((project.hierarchyFor path none).run memory).1 =
      .ok (name :: others, some tree) := by
    have hcandidates : project.rootCandidates path none = project.namesFor path := rfl
    rw [hierarchyFor, Scan.run_bind, hcandidates, hnames]
    dsimp only
    rw [Scan.run_bind, hfirst]
    rfl
  exact ⟨tree, hanswer, hroot⟩

/-- The first class that code declares is the first name to try. -/
theorem answer_namesFor_logic {path : Path} {others : List String}
    (hkind : project.settings.kindOf path = some .logic)
    (htext : project.view memory path = .ok text)
    (hnames : Lexical.Declaration.names text = name :: others) :
    ∃ more, ((project.namesFor path).run memory).1 = .ok (name :: more) := by
  rw [namesFor, hkind]
  dsimp only
  rw [Scan.run_bind, run_read, htext]
  refine ⟨firstsFrom id [name] [path.stem], ?_⟩
  show Except.ok (firstsBy id ((Lexical.Declaration.names text).take 1 ++ [path.stem])) = _
  rw [hnames]
  rfl

theorem answer_namesFor_markup {path : Path}
    (hkind : project.settings.kindOf path = some .markup) :
    ((project.namesFor path).run memory).1 = .ok [path.stem] := by
  rw [namesFor, hkind]
  rfl

/-- Whatever is offered as a root can be built, whatever the settings are.  Each entity of a folder
is located at any moment at which the same texts are in sight, unless all that speaks for it is the
name of a file of code.  A listed file of code that can be read and declares a class gives the
hierarchy of the first class, and a listed file of markup gives that of the file's own name,
readable or not. -/
theorem offered_roots_resolve (hview : project.view later = project.view memory) :
    (∀ name, ∀ entity ∈ ((project.folderEntities name).run memory).1,
        ¬ project.IsStemOnly memory entity →
          ((project.locate entity.name).run later).1.isSome = true) ∧
      ∀ extensions folder, ∀ file ∈ project.files extensions folder,
        (∀ text first others, file.kind = .logic → project.view memory file.path = .ok text →
          Lexical.Declaration.names text = first :: others →
            ∃ tried tree, ((project.hierarchyFor file.path none).run memory).1 =
              .ok (tried, some tree) ∧ tree.name = first) ∧
        (file.kind = .markup →
          ∃ tried tree, ((project.hierarchyFor file.path none).run memory).1 =
            .ok (tried, some tree) ∧ tree.name = file.path.stem) := by
  refine ⟨fun name entity hentity hdeclared => ?_, fun extensions folder file hfile => ⟨?_, ?_⟩⟩
  · rw [(project.steady_locate entity.name).answer_eq _ _ hview]
    exact isSome_locate_of_mem_folderEntities hentity hdeclared
  · intro text first others hkind htext hnames
    have hcode := kindOf_of_mem_files hfile
    rw [hkind] at hcode
    obtain ⟨more, hfirst⟩ := answer_namesFor_logic hcode htext hnames
    have hlocated : ((project.locate first).run memory).1.isSome = true :=
      isSome_locate_of_mem_names hfile hkind htext (by rw [hnames]; exact List.mem_cons_self)
    obtain ⟨tree, hanswer, hroot⟩ := hierarchyFor_eq_of_locate hfirst hlocated
    exact ⟨_, tree, hanswer, hroot⟩
  · intro hkind
    have hmarkup := kindOf_of_mem_files hfile
    rw [hkind] at hmarkup
    obtain ⟨tree, hanswer, hroot⟩ := hierarchyFor_eq_of_locate (answer_namesFor_markup hmarkup)
      (isSome_locate_stem hfile hkind)
    exact ⟨_, tree, hanswer, hroot⟩

/-- A project with a folder of one file of code, named unlike its class, and one of markup. -/
def misnamedClass : Project where
  store :=
    { entries := [(["p"], .directory), (["p", "w"], .directory),
        (["p", "w", "a.js"], .file "class B extends C {}".toUTF8.toList),
        (["p", "w", "d.html"], .file "<c-x>".toUTF8.toList)] }
  root := ⟨.root, ["p"]⟩
  settings := {}

/-- The class and the markup of the folder are located, and both files give a hierarchy when they
are open.  The name of the file of code is offered as well; this is the one that is not located. -/
theorem offered_roots_resolve_misnamedClass :
    ((misnamedClass.folderEntities "w").run {}).1 = [⟨"B", ⟨.root, ["p", "w", "a.js"]⟩⟩,
        ⟨"a", ⟨.root, ["p", "w", "a.js"]⟩⟩, ⟨"d", ⟨.root, ["p", "w", "d.html"]⟩⟩] ∧
      ((misnamedClass.locate "B").run {}).1.isSome = true ∧
      ((misnamedClass.locate "d").run {}).1.isSome = true ∧
      ((misnamedClass.locate "a").run {}).1 = none ∧
      (∃ tried tree, ((misnamedClass.hierarchyFor ⟨.root, ["p", "w", "a.js"]⟩ none).run {}).1 =
        .ok (tried, some tree) ∧ tree.name = "B") ∧
      ∃ tried tree, ((misnamedClass.hierarchyFor ⟨.root, ["p", "w", "d.html"]⟩ none).run {}).1 =
        .ok (tried, some tree) ∧ tree.name = "d" := by
  have hbelow : misnamedClass.store.below misnamedClass.root = [⟨.root, ["p", "w"]⟩,
      ⟨.root, ["p", "w", "a.js"]⟩, ⟨.root, ["p", "w", "d.html"]⟩] :=
    Store.below_eq_of_sorted rfl (by decide)
  have hentities : ((misnamedClass.folderEntities "w").run {}).1 =
      [⟨"B", ⟨.root, ["p", "w", "a.js"]⟩⟩, ⟨"a", ⟨.root, ["p", "w", "a.js"]⟩⟩,
        ⟨"d", ⟨.root, ["p", "w", "d.html"]⟩⟩] := by
    rw [answer_folderEntities, files_eq_of_below hbelow]
    decide +kernel
  have hnowhere : ((misnamedClass.locate "a").run {}).1 = none := by
    rw [answer_locate, files_eq_of_below hbelow, files_eq_of_below hbelow]
    decide +kernel
  have hcode : (⟨⟨.root, ["p", "w", "a.js"]⟩, .logic⟩ : SourceFile) ∈
      misnamedClass.files misnamedClass.settings.allExtensions none := by
    rw [files_eq_of_below hbelow]
    decide
  have hmarkup : (⟨⟨.root, ["p", "w", "d.html"]⟩, .markup⟩ : SourceFile) ∈
      misnamedClass.files misnamedClass.settings.allExtensions none := by
    rw [files_eq_of_below hbelow]
    decide +kernel
  have htext : misnamedClass.view {} ⟨.root, ["p", "w", "a.js"]⟩ = .ok "class B extends C {}" := by
    decide +kernel
  have hnames : Lexical.Declaration.names "class B extends C {}" = ["B"] := by decide +kernel
  have hview : misnamedClass.view {} = misnamedClass.view {} := rfl
  obtain ⟨hlocated, hopened⟩ := offered_roots_resolve hview
  have hclass : ¬ misnamedClass.IsStemOnly {} ⟨"B", ⟨.root, ["p", "w", "a.js"]⟩⟩ :=
    fun h => absurd h.2.1 (by decide)
  have htemplate : ¬ misnamedClass.IsStemOnly {} ⟨"d", ⟨.root, ["p", "w", "d.html"]⟩⟩ :=
    fun h => absurd h.1 (by decide)
  refine ⟨hentities, ?_, ?_, hnowhere, ?_, ?_⟩
  · exact hlocated "w" _ (by rw [hentities]; decide) hclass
  · exact hlocated "w" _ (by rw [hentities]; decide) htemplate
  · exact (hopened _ _ _ hcode).1 _ _ _ rfl htext hnames
  · obtain ⟨tried, tree, hanswer, hroot⟩ := (hopened _ _ _ hmarkup).2 rfl
    exact ⟨tried, tree, hanswer, hroot.trans (by decide +kernel)⟩

end Project

end Lineage
