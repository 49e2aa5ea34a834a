import Lineage.Proofs.Scan.Inventory
import Lineage.Proofs.Tags.Attested

/-!
# The entities of a folder

The files below directories of one name are read in their order, and each gives the names that it
may stand for.  No two files have the same path, so what one of them gives is not lost because
another one gave it before; repetitions are left out within a file only.  Of a file of code that
leaves the classes in the order in which they are first declared, and the name of the file behind
them unless a class has that name.

Markup gives its own name only if a tag is opened somewhere in it, or at least the text that tags
start with occurs.  So markup in which tags are found is never missed.

## Main results

* `mem_files_some_iff`: narrowing a listing to a folder.
* `filter_path_offers`, `map_name_filter_firstsBy`: what one of the files gives.
* `opener_infix_of_mem_inMarkup`: markup in which tags are found.
* `folderEntities_exact`: which entities a folder has, and in which order.
-/

namespace Lineage

/-! ## Markup in which tags are found -/

namespace TagUsage

open Lexical.Tag

theorem opener_infix_of_mem_findAll {line tagPrefix tag : String}
    (h : tag ∈ findAll line tagPrefix) : (opener tagPrefix).toList <:+: line.toList := by
  obtain ⟨ident, hident, -⟩ := List.mem_map.mp h
  obtain ⟨chars, hchars, -⟩ := List.mem_map.mp hident
  obtain ⟨lead, here, found, hcut, hrule, -⟩ := Lexical.exists_of_mem_allMatches hchars
  rw [identAt?] at hrule
  split at hrule
  · cases hrule
  · next rest hrest =>
      rw [Text.after?_eq_some_iff] at hrest
      refine ⟨lead, rest, ?_⟩
      rw [hcut, hrest, List.append_assoc]

theorem opener_infix_of_mem_inMarkup {text tagPrefix : String} {file : Option Path}
    {usage : TagUsage} (h : usage ∈ inMarkup text tagPrefix file) :
    usage.file = file ∧ (opener tagPrefix).toList <:+: text.toList := by
  obtain ⟨⟨number, line⟩, hline, husage⟩ := List.mem_flatMap.mp h
  obtain ⟨tag, htag, rfl⟩ := List.mem_map.mp husage
  obtain ⟨-, hthere⟩ := mem_numberedLines_iff.mp hline
  have hmember : line.toList ∈ Text.lines text.toList := List.mem_of_getElem? hthere
  exact ⟨rfl, (opener_infix_of_mem_findAll htag).trans (Text.infix_of_mem_fields hmember)⟩

end TagUsage

namespace Project

variable {project : Project} {memory : Memory} {folder : String} {file : SourceFile}

/-! ## Narrowing to a folder -/

theorem mem_files_some_iff (hfolder : folder ≠ "") {extensions : List String} :
    file ∈ project.files extensions (some folder) ↔
      file ∈ project.files extensions none ∧ folder ∈ project.directories file.path := by
  have hadmits (path : Path) : project.admits (some folder) path = true ↔
      project.admits none path = true ∧ folder ∈ project.directories path := by
    rw [admits_iff, admits_iff]
    simp [hfolder]
  rw [files, files, List.mem_filterMap, List.mem_filterMap]
  simp only [sourceFile?_eq_some_iff, hadmits]
  constructor
  · rintro ⟨path, hpath, rfl, hfile, ⟨hadmitted, hbelow⟩, hkind⟩
    exact ⟨⟨file.path, hpath, rfl, hfile, hadmitted, hkind⟩, hbelow⟩
  · rintro ⟨⟨path, hpath, rfl, hfile, hadmitted, hkind⟩, hbelow⟩
    exact ⟨file.path, hpath, rfl, hfile, ⟨hadmitted, hbelow⟩, hkind⟩

/-! ## What a file gives -/

/-- The file is in sight and may stand for an entity of the name. -/
def StandsFor (project : Project) (memory : Memory) (file : SourceFile) (name : String) : Prop :=
  ∃ text, project.view memory file.path = .ok text ∧
    match file.kind with
    | .logic => name ∈ Lexical.Declaration.names text ∨ name = file.path.stem
    | .markup =>
        (Lexical.Tag.opener project.settings.tagPrefix).toList <:+: text.toList ∧
          name = file.path.stem

theorem mem_entitiesOf_iff {tagPrefix text : String} {entity : Entity} :
    entity ∈ entitiesOf tagPrefix file text ↔ file.path = entity.path ∧
      match file.kind with
      | .logic => entity.name ∈ Lexical.Declaration.names text ∨ entity.name = file.path.stem
      | .markup =>
          (Lexical.Tag.opener tagPrefix).toList <:+: text.toList ∧
            entity.name = file.path.stem := by
  obtain ⟨name, path⟩ := entity
  rw [entitiesOf]
  cases file.kind with
  | logic =>
      simp only [List.mem_append, List.mem_map, List.mem_singleton, Entity.mk.injEq]
      constructor
      · rintro (⟨found, hfound, rfl, rfl⟩ | ⟨rfl, rfl⟩)
        · exact ⟨rfl, .inl hfound⟩
        · exact ⟨rfl, .inr rfl⟩
      · rintro ⟨rfl, hname | rfl⟩
        · exact .inl ⟨name, hname, rfl, rfl⟩
        · exact .inr ⟨rfl, rfl⟩
  | markup =>
      simp only [Text.occurs_iff]
      split
      · next hopener => simp [hopener, eq_comm, and_comm]
      · next hopener => simp [hopener]

/-- The files of a folder with their texts, as far as they are in sight. -/
def folderTexts (project : Project) (memory : Memory) (folder : String) :
    List (SourceFile × String) :=
  project.legible memory (project.files project.settings.allExtensions (some folder))

theorem mem_folderTexts_iff (hfolder : folder ≠ "") {text : String} :
    (file, text) ∈ project.folderTexts memory folder ↔
      file ∈ project.files project.settings.allExtensions none ∧
        folder ∈ project.directories file.path ∧ project.view memory file.path = .ok text := by
  rw [folderTexts, mem_legible_iff, mem_files_some_iff hfolder, and_assoc]

theorem pairwise_folderTexts (project : Project) (memory : Memory) (folder : String) :
    (project.folderTexts memory folder).Pairwise fun read other => read.1.Before other.1 := by
  refine (project.pairwise_files _ _).filterMap _ ?_
  intro file other hbefore read hread otherRead hother
  split at hread
  · split at hother
    · cases hread
      cases hother
      exact hbefore
    · cases hother
  · cases hread

/-- What the files of a folder give, with repetitions. -/
def offers (project : Project) (memory : Memory) (folder : String) : List Entity :=
  (project.folderTexts memory folder).flatMap fun (file, text) =>
    entitiesOf project.settings.tagPrefix file text

theorem path_of_mem_entitiesOf {tagPrefix text : String} {entity : Entity}
    (h : entity ∈ entitiesOf tagPrefix file text) : entity.path = file.path :=
  (mem_entitiesOf_iff.mp h).1.symm

theorem pairwise_offers (project : Project) (memory : Memory) (folder : String) :
    (project.offers memory folder).Pairwise fun entity other =>
      entity.path = other.path ∨ entity.path.Before other.path := by
  rw [offers, List.pairwise_flatMap]
  constructor
  · rintro ⟨file, text⟩ -
    refine List.pairwise_of_forall_mem_list fun entity hentity other hother => .inl ?_
    exact (path_of_mem_entitiesOf hentity).trans (path_of_mem_entitiesOf hother).symm
  · refine (project.pairwise_folderTexts memory folder).imp ?_
    intro read other hbefore entity hentity otherEntity hother
    rw [path_of_mem_entitiesOf hentity, path_of_mem_entitiesOf hother]
    exact .inr hbefore

/-- No other file gives anything under the path of a file. -/
theorem filter_path_offers {text : String} (h : (file, text) ∈ project.folderTexts memory folder) :
    (project.offers memory folder).filter (fun entity => entity.path = file.path) =
      entitiesOf project.settings.tagPrefix file text := by
  obtain ⟨ahead, behind, hsplit⟩ := List.append_of_mem h
  have hordered := project.pairwise_folderTexts memory folder
  rw [hsplit, List.pairwise_append, List.pairwise_cons] at hordered
  obtain ⟨-, ⟨hbehind, -⟩, hahead⟩ := hordered
  -- Other files have other paths, as each of them comes before this one or after it.
  have hnothing (reads : List (SourceFile × String))
      (hreads : ∀ read ∈ reads, read.1.path ≠ file.path) :
      (reads.flatMap fun (file, text) => entitiesOf project.settings.tagPrefix file text).filter
        (fun entity => entity.path = file.path) = [] := by
    rw [List.filter_eq_nil_iff]
    intro entity hentity
    obtain ⟨read, hread, hoffered⟩ := List.mem_flatMap.mp hentity
    rw [decide_eq_true_eq, path_of_mem_entitiesOf hoffered]
    exact hreads read hread
  have hall : (entitiesOf project.settings.tagPrefix file text).filter
      (fun entity => entity.path = file.path) =
        entitiesOf project.settings.tagPrefix file text := by
    rw [List.filter_eq_self]
    exact fun entity hentity => decide_eq_true (path_of_mem_entitiesOf hentity)
  rw [offers, hsplit, List.flatMap_append, List.flatMap_cons, List.filter_append,
    List.filter_append, hnothing ahead, hnothing behind, hall, List.nil_append, List.append_nil]
  · exact fun read hread => (hbehind read hread).2.1.symm
  · exact fun read hread => (hahead read hread _ List.mem_cons_self).2.1

/-! ## The entities of a folder -/

theorem answer_folderEntities_eq (folder : String) (memory : Memory) :
    ((project.folderEntities folder).run memory).1 = firstsBy id (project.offers memory folder) :=
  answer_folderEntities folder memory

/-- The names that a file of code gives, without repetitions. -/
theorem map_name_filter_firstsBy {text : String} (hkind : file.kind = .logic)
    (h : (file, text) ∈ project.folderTexts memory folder) :
    ((firstsBy id (project.offers memory folder)).filter
      (fun entity => entity.path = file.path)).map Entity.name =
        firstsBy id (Lexical.Declaration.names text ++ [file.path.stem]) := by
  have hnames : (entitiesOf project.settings.tagPrefix file text).map Entity.name =
      Lexical.Declaration.names text ++ [file.path.stem] := by
    rw [entitiesOf, hkind]
    show List.map Entity.name (List.map _ _ ++ _) = _
    rw [List.map_append, List.map_map]
    exact congrArg (· ++ _) (List.map_id _)
  rw [filter_firstsBy_id, filter_path_offers h, ← hnames]
  refine map_firstsBy fun entity hentity other hother => ?_
  have hpath : entity.path = other.path :=
    (path_of_mem_entitiesOf hentity).trans (path_of_mem_entitiesOf hother).symm
  obtain ⟨name, path⟩ := entity
  obtain ⟨otherName, otherPath⟩ := other
  simp only [id_eq, Entity.mk.injEq, and_iff_left hpath]

/-- The entities are what the files below directories of the name stand for, each once, in the order
of their files; those of a file of code in the order in which they are first declared, the name of
the file last unless it is declared. -/
structure Catalogues (project : Project) (memory : Memory) (folder : String)
    (entities : List Entity) : Prop where
  nodup : entities.Nodup
  mem_iff : ∀ entity, entity ∈ entities ↔
    ∃ file ∈ project.files project.settings.allExtensions none,
      folder ∈ project.directories file.path ∧ file.path = entity.path ∧
        project.StandsFor memory file entity.name
  ordered : entities.Pairwise fun entity other =>
    entity.path = other.path ∨ entity.path.Before other.path
  declared : ∀ file ∈ project.files project.settings.allExtensions none,
    folder ∈ project.directories file.path → file.kind = .logic →
      ∀ text, project.view memory file.path = .ok text →
        ∃ classes, FirstsOf classes (Lexical.Declaration.names text) ∧
          (entities.filter fun entity => entity.path = file.path).map Entity.name =
            if file.path.stem ∈ Lexical.Declaration.names text then classes
            else classes ++ [file.path.stem]

theorem catalogues_firstsBy (hfolder : folder ≠ "") (memory : Memory) :
    project.Catalogues memory folder (firstsBy id (project.offers memory folder)) where
  nodup := firstsBy_id_nodup _
  mem_iff entity := by
    rw [mem_firstsBy_id, offers, List.mem_flatMap]
    constructor
    · rintro ⟨⟨file, text⟩, hread, hoffered⟩
      obtain ⟨hfile, hbelow, hview⟩ := (mem_folderTexts_iff hfolder).mp hread
      obtain ⟨hpath, hname⟩ := mem_entitiesOf_iff.mp hoffered
      exact ⟨file, hfile, hbelow, hpath, text, hview, hname⟩
    · rintro ⟨file, hfile, hbelow, hpath, text, hview, hname⟩
      exact ⟨(file, text), (mem_folderTexts_iff hfolder).mpr ⟨hfile, hbelow, hview⟩,
        mem_entitiesOf_iff.mpr ⟨hpath, hname⟩⟩
  ordered := (project.pairwise_offers memory folder).sublist (firstsBy_sublist id _)
  declared file hfile hbelow hkind text hview := by
    refine ⟨firstsBy id (Lexical.Declaration.names text), firstsOf_firstsBy_id _, ?_⟩
    rw [map_name_filter_firstsBy hkind ((mem_folderTexts_iff hfolder).mpr ⟨hfile, hbelow, hview⟩),
      firstsBy_id_concat]

/-- The entities of a folder are given without an error, whatever faults there are.  They are those
of the files in sight below directories of that name, and markup with tags is always among these
files. -/
theorem folderEntities_exact (hroot : project.rootFault? = none) (folder : String)
    (hfolder : folder ≠ "") (memory : Memory) :
    ∃ entities : List Entity,
      (((Query.folderEntities folder).ask project).run memory).1 = .ok entities ∧
      project.Catalogues memory folder entities ∧
      ∀ later, project.view later = project.view memory →
        ∃ usages : List TagUsage, ((Query.tags.ask project).run later).1 = .ok usages ∧
          ∀ usage ∈ usages, ∃ path, usage.file = some path ∧
            (folder ∈ project.directories path → ∃ entity ∈ entities, entity.path = path) := by
  have hcatalogues := project.catalogues_firstsBy hfolder memory
  rw [← answer_folderEntities_eq] at hcatalogues
  refine ⟨_, Query.answer_ask _ hroot memory, hcatalogues, fun later hview =>
    ⟨_, Query.answer_ask _ hroot later, fun usage husage => ?_⟩⟩
  obtain ⟨file, text, hfile, htext, hmarkup⟩ := mem_tags_iff.mp husage
  obtain ⟨hpath, hopener⟩ := TagUsage.opener_infix_of_mem_inMarkup hmarkup
  refine ⟨file.path, hpath, fun hbelow => ?_⟩
  have hlisted : file ∈ project.files project.settings.allExtensions none :=
    mem_files_append_iff.mpr (.inr hfile)
  have hstands : project.StandsFor memory file file.path.stem := by
    refine ⟨text, hview ▸ htext, ?_⟩
    cases file.kind with
    | logic => exact .inr rfl
    | markup => exact ⟨hopener, rfl⟩
  exact ⟨⟨file.path.stem, file.path⟩,
    (hcatalogues.mem_iff _).mpr ⟨file, hlisted, hbelow, rfl, hstands⟩, rfl⟩

/-- A project with two folders of one name: in the one a file of code that declares its own name
twice, markup with a tag and markup without, in the other a file that cannot be read. -/
def sameNamedFolders : Project where
  store :=
    { entries := [(["p"], .directory), (["p", "v"], .directory), (["p", "v", "w"], .directory),
        (["p", "v", "w", "a.js"], .file "class A {}".toUTF8.toList), (["p", "w"], .directory),
        (["p", "w", "b.js"], .file "class b {}\nclass a {}\nclass b {}".toUTF8.toList),
        (["p", "w", "c.html"], .file "<c-x>".toUTF8.toList), (["p", "w", "d.html"], .file []),
        (["p", "w", "e.ts"], .file []), (["p", "w.js"], .file "class B {}".toUTF8.toList)]
      unreadable := [⟨.root, ["p", "v", "w", "a.js"]⟩] }
  root := ⟨.root, ["p"]⟩
  settings := {}

/-- Three files of the folder have entities, and the one with the tag is among them. -/
theorem folderEntities_exact_sameNamedFolders :
    sameNamedFolders.rootFault? = none ∧
      (((Query.folderEntities "w").ask sameNamedFolders).run {}).1 =
        .ok [⟨"b", ⟨.root, ["p", "w", "b.js"]⟩⟩, ⟨"a", ⟨.root, ["p", "w", "b.js"]⟩⟩,
          ⟨"c", ⟨.root, ["p", "w", "c.html"]⟩⟩, ⟨"e", ⟨.root, ["p", "w", "e.ts"]⟩⟩] ∧
      sameNamedFolders.Catalogues {} "w" [⟨"b", ⟨.root, ["p", "w", "b.js"]⟩⟩,
        ⟨"a", ⟨.root, ["p", "w", "b.js"]⟩⟩, ⟨"c", ⟨.root, ["p", "w", "c.html"]⟩⟩,
        ⟨"e", ⟨.root, ["p", "w", "e.ts"]⟩⟩] ∧
      ∃ usages : List TagUsage, ((Query.tags.ask sameNamedFolders).run {}).1 = .ok usages ∧
        usages.map TagUsage.file = [some ⟨.root, ["p", "w", "c.html"]⟩] := by
  have hroot : sameNamedFolders.rootFault? = none := rfl
  have hbelow : sameNamedFolders.store.below sameNamedFolders.root = [["v"], ["v", "w"],
      ["v", "w", "a.js"], ["w"], ["w", "b.js"], ["w", "c.html"], ["w", "d.html"], ["w", "e.ts"],
      ["w.js"]].map fun names => ⟨.root, "p" :: names⟩ :=
    Store.below_eq_of_sorted rfl (by decide +kernel)
  obtain ⟨entities, hentities, hcatalogues, htags⟩ :=
    folderEntities_exact hroot "w" (by decide) {}
  obtain ⟨usages, husages, -⟩ := htags {} rfl
  have hfound : entities = [⟨"b", ⟨.root, ["p", "w", "b.js"]⟩⟩,
      ⟨"a", ⟨.root, ["p", "w", "b.js"]⟩⟩, ⟨"c", ⟨.root, ["p", "w", "c.html"]⟩⟩,
      ⟨"e", ⟨.root, ["p", "w", "e.ts"]⟩⟩] := by
    have hanswer := hentities.symm.trans (Query.answer_ask _ hroot {})
    rw [Except.ok.inj hanswer]
    show ((sameNamedFolders.folderEntities "w").run {}).1 = _
    rw [answer_folderEntities, files_eq_of_below hbelow]
    decide +kernel
  have hfiles : usages.map TagUsage.file = [some ⟨.root, ["p", "w", "c.html"]⟩] := by
    have hanswer := husages.symm.trans (Query.answer_ask _ hroot {})
    rw [Except.ok.inj hanswer]
    show (sameNamedFolders.tags.run {}).1.map TagUsage.file = _
    rw [answer_tags, files_eq_of_below hbelow]
    decide +kernel
  subst hfound
  exact ⟨hroot, hentities, hcatalogues, usages, husages, hfiles⟩

end Project

end Lineage
