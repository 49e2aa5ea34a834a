import Lineage.Proofs.Scan.Kinds
import Lineage.Proofs.Scan.Reach
import Mathlib.Data.List.Dedup

/-!
# Listings of the two groups of extensions

The settings name two groups of extensions, one for code and one for markup.  A listing is made for
the group of either kind, or for both groups at once, and the kind of each file is told apart from
that.  An extension may be in both groups.  Its files are markup, and they stand in both listings.

The listing for both groups is the merge of the other two, whatever the settings are: listings are
in strict order, so it is enough to compare what they hold, and a file for which both groups ask is
listed once.  What each listing holds is said for extensions in lower case, in which overriding
leaves them.

## Main results

* `files_append`: the listing for two groups is a merge.
* `mem_logicFiles_iff`, `mem_markupFiles_iff`: what the listings of code and of markup hold.
* `listings_by_kind`: the three listings together.
-/

namespace Lineage

/-- The path ends in one of the extensions, whatever the letter case. -/
def Path.EndsIn (path : Path) (extensions : List String) : Prop :=
  ∃ extension ∈ extensions, Unicode.lower extension = Unicode.lower path.suffix

instance (path : Path) (extensions : List String) : Decidable (path.EndsIn extensions) :=
  decidable_of_iff _ Settings.hasExtension_iff

namespace SourceFile

/-- The file does not come after the other one in the order of paths. -/
def precedes (file other : SourceFile) : Bool := file.path.precedes other.path

theorem precedes_trans (file other third : SourceFile) (h : file.precedes other = true)
    (hother : other.precedes third = true) : file.precedes third = true :=
  Path.precedes_trans _ _ _ h hother

theorem precedes_total (file other : SourceFile) :
    (file.precedes other || other.precedes file) = true :=
  Path.precedes_total _ _

end SourceFile

namespace Project

variable {project : Project} {folder : Option String} {file other : SourceFile}

/-! ## Two groups at once -/

theorem mem_files_append_iff {first second : List String} :
    file ∈ project.files (first ++ second) folder ↔
      file ∈ project.files first folder ∨ file ∈ project.files second folder := by
  have hextension (path : Path) : hasExtension (first ++ second) path =
      (hasExtension first path || hasExtension second path) := by
    rw [Bool.eq_iff_iff, Bool.or_eq_true, Settings.hasExtension_iff, Settings.hasExtension_iff,
      Settings.hasExtension_iff]
    simp only [List.mem_append, or_and_right, exists_or]
  simp only [files, candidates, List.mem_filterMap, List.mem_filter, hextension, Bool.or_eq_true,
    and_or_left, or_and_right, exists_or]

/-- The kind of a file goes with its path. -/
theorem eq_of_mem_files {first second : List String} (hfile : file ∈ project.files first folder)
    (hother : other ∈ project.files second folder) (hpath : file.path = other.path) :
    file = other := by
  have hkind := kindOf_of_mem_files hfile
  rw [hpath, kindOf_of_mem_files hother] at hkind
  obtain ⟨path, kind⟩ := file
  obtain ⟨otherPath, otherKind⟩ := other
  cases hpath
  cases hkind
  rfl

theorem before_of_precedes {first second : List String}
    (hfile : file ∈ project.files first folder) (hother : other ∈ project.files second folder)
    (hne : file ≠ other) (hprecedes : file.precedes other = true) : file.Before other := by
  have hanchor : file.path.anchor = other.path.anchor :=
    (anchor_of_mem_files hfile).trans (anchor_of_mem_files hother).symm
  exact ⟨hanchor, fun hpath => hne (eq_of_mem_files hfile hother hpath), hprecedes⟩

/-- The listing for two groups merges the listings of the groups, with every file once. -/
theorem files_append (project : Project) (first second : List String) (folder : Option String) :
    project.files (first ++ second) folder =
      ((project.files first folder).merge (project.files second folder)
        SourceFile.precedes).dedup := by
  have hmerge : ((project.files first folder).merge (project.files second folder)
      SourceFile.precedes).Pairwise fun file other => file.precedes other = true := by
    refine List.pairwise_merge SourceFile.precedes_trans SourceFile.precedes_total _ _ ?_ ?_
    · exact (project.pairwise_files first folder).imp fun hbefore => hbefore.2.2
    · exact (project.pairwise_files second folder).imp fun hbefore => hbefore.2.2
  have hmem {listed : SourceFile} : listed ∈ ((project.files first folder).merge
      (project.files second folder) SourceFile.precedes).dedup ↔
        listed ∈ project.files (first ++ second) folder := by
    rw [List.mem_dedup, List.mem_merge, mem_files_append_iff]
  refine (project.pairwise_files _ folder).eq_of_mem_iff ?_ fun listed => hmem.symm
  refine ((hmerge.sublist (List.dedup_sublist _)).and (List.nodup_dedup _)).imp_of_mem ?_
  rintro file other hfile hother ⟨hprecedes, hne⟩
  exact before_of_precedes (hmem.mp hfile) (hmem.mp hother) hne hprecedes

/-! ## What the listings hold -/

/-- There is a file at the path, below the root and with no directory that is passed over on the
way. -/
def HasFile (project : Project) (path : Path) : Prop :=
  path.IsPlain ∧ Store.liesBelow project.root path = true ∧ project.Reaches path ∧
    ∃ bytes, project.store.access path = .ok (.file bytes)

theorem mem_files_iff_hasFile {extensions : List String}
    (hfaultless : project.store.unstatable = []) :
    file ∈ project.files extensions none ↔
      project.HasFile file.path ∧ file.path.EndsIn extensions ∧
        project.settings.kindOf file.path = some file.kind := by
  have hthere : project.store.isFile file.path = .ok true ↔
      ∃ bytes, project.store.access file.path = .ok (.file bytes) := by
    rw [Store.isFile_eq_true_iff, hfaultless]
    exact and_iff_right List.not_mem_nil
  rw [mem_files_iff, Settings.hasExtension_iff, hthere]
  constructor
  · rintro ⟨hplain, hlies, hfile, hends, hadmits, hkind⟩
    exact ⟨⟨hplain, hlies, reaches_of_admits hlies hadmits, hfile⟩, hends, hkind⟩
  · rintro ⟨⟨hplain, hlies, hreaches, hfile⟩, hends, hkind⟩
    exact ⟨hplain, hlies, hfile, hends, admits_none_of_reaches hreaches, hkind⟩

end Project

/-- With extensions in lower case, what ends in one of those for code is code unless it also ends
in one of those for markup. -/
theorem Settings.kindOf_of_endsIn_logic {settings : Settings} {path : Path}
    (hlower : settings.IsLowerCase) (hends : path.EndsIn settings.logicExtensions) :
    settings.kindOf path =
      some (if path.EndsIn settings.markupExtensions then .markup else .logic) := by
  split
  · next hmarkup =>
      exact (kindOf_eq_markup_iff_hasExtension hlower).mpr (hasExtension_iff.mpr hmarkup)
  · next hmarkup =>
      have hno : Unicode.lower path.suffix ∉ settings.markupExtensions := fun hmem =>
        hmarkup ⟨_, hmem, Unicode.lower_lower path.suffix⟩
      obtain ⟨extension, hextension, hsame⟩ := hends
      have hyes : Unicode.lower path.suffix ∈ settings.logicExtensions := by
        rw [← hsame, hlower extension (List.mem_append_left _ hextension)]
        exact hextension
      rw [kindOf, if_neg hno, if_pos hyes]

namespace Project

variable {project : Project}

theorem mem_logicFiles_iff (hfaultless : project.store.unstatable = [])
    (hlower : project.settings.IsLowerCase) (memory : Memory) (file : SourceFile) :
    file ∈ (project.logicFiles.run memory).1 ↔
      project.HasFile file.path ∧ file.path.EndsIn project.settings.logicExtensions ∧
        file.kind =
          if file.path.EndsIn project.settings.markupExtensions then .markup else .logic := by
  refine (mem_files_iff_hasFile hfaultless).trans (and_congr_right fun _ => ?_)
  refine and_congr_right fun hends => ?_
  rw [Settings.kindOf_of_endsIn_logic hlower hends, Option.some_inj]
  exact eq_comm

theorem mem_markupFiles_iff (hfaultless : project.store.unstatable = [])
    (hlower : project.settings.IsLowerCase) (memory : Memory) (file : SourceFile) :
    file ∈ (project.markupFiles.run memory).1 ↔
      project.HasFile file.path ∧ file.path.EndsIn project.settings.markupExtensions ∧
        file.kind = .markup := by
  refine (mem_files_iff_hasFile hfaultless).trans (and_congr_right fun _ => ?_)
  refine and_congr_right fun hends => ?_
  have hmarkup := (Settings.kindOf_eq_markup_iff_hasExtension hlower).mpr
    (Settings.hasExtension_iff.mpr hends)
  rw [hmarkup, Option.some_inj]
  exact eq_comm

/-- What the listings of code, of markup and of both have to do with the files of a project. -/
structure ListedByKind (project : Project) (logic markup both : List SourceFile) : Prop where
  /-- Listings are in the order of paths and have no file twice. -/
  ordered : ∀ listing ∈ [logic, markup, both], listing.Pairwise SourceFile.Before
  /-- Code is what ends in an extension for code, though what ends in one for markup as well is of
  that kind. -/
  mem_logic : ∀ file, file ∈ logic ↔
    project.HasFile file.path ∧ file.path.EndsIn project.settings.logicExtensions ∧
      file.kind = if file.path.EndsIn project.settings.markupExtensions then .markup else .logic
  /-- Markup is what ends in an extension for markup. -/
  mem_markup : ∀ file, file ∈ markup ↔
    project.HasFile file.path ∧ file.path.EndsIn project.settings.markupExtensions ∧
      file.kind = .markup
  /-- Both list what is listed as code and is of the kind of markup. -/
  mem_both : ∀ file, file ∈ logic ∧ file ∈ markup ↔ file ∈ logic ∧ file.kind = .markup
  /-- Groups that share no extension share no file. -/
  apart : project.settings.logicExtensions.Disjoint project.settings.markupExtensions →
    (∀ file ∈ logic, file.kind = .logic ∧ file.path ∉ markup.map SourceFile.path) ∧
      both = logic.merge markup SourceFile.precedes

/-- Groups in lower case that share no extension do not share one in another spelling. -/
theorem not_endsIn_markup {path : Path} (hlower : project.settings.IsLowerCase)
    (hdisjoint : project.settings.logicExtensions.Disjoint project.settings.markupExtensions)
    (hlogic : path.EndsIn project.settings.logicExtensions) :
    ¬ path.EndsIn project.settings.markupExtensions := by
  rintro ⟨other, hother, hsameOther⟩
  obtain ⟨extension, hextension, hsame⟩ := hlogic
  rw [hlower other (List.mem_append_right _ hother)] at hsameOther
  rw [hlower extension (List.mem_append_left _ hextension), ← hsameOther] at hsame
  rw [hsame] at hextension
  exact hdisjoint hextension hother

theorem path_not_mem_markupFiles {path : Path} (hfaultless : project.store.unstatable = [])
    (hlower : project.settings.IsLowerCase)
    (hdisjoint : project.settings.logicExtensions.Disjoint project.settings.markupExtensions)
    (hlogic : path.EndsIn project.settings.logicExtensions) (memory : Memory) :
    path ∉ (project.markupFiles.run memory).1.map SourceFile.path := by
  intro hpath
  obtain ⟨file, hfile, rfl⟩ := List.mem_map.mp hpath
  obtain ⟨-, hmarkup, -⟩ := (mem_markupFiles_iff hfaultless hlower memory file).mp hfile
  exact not_endsIn_markup hlower hdisjoint hlogic hmarkup

/-- The listing of both groups is the merge of the listings of code and of markup; with extensions
in lower case these list the files of the groups by kind, and markup goes before code. -/
theorem listings_by_kind (project : Project) (hfaultless : project.store.unstatable = [])
    (memory : Memory) :
    (project.allFiles.run memory).1 =
        ((project.logicFiles.run memory).1.merge (project.markupFiles.run memory).1
          SourceFile.precedes).dedup ∧
      (project.settings.IsLowerCase →
        project.ListedByKind (project.logicFiles.run memory).1 (project.markupFiles.run memory).1
          (project.allFiles.run memory).1) := by
  have hall : (project.allFiles.run memory).1 =
      ((project.logicFiles.run memory).1.merge (project.markupFiles.run memory).1
        SourceFile.precedes).dedup := project.files_append _ _ none
  refine ⟨hall, fun hlower => ?_⟩
  have hlogic := mem_logicFiles_iff hfaultless hlower memory
  have hmarkup := mem_markupFiles_iff hfaultless hlower memory
  refine ⟨?_, hlogic, hmarkup, fun file => ?_, fun hdisjoint => ?_⟩
  · simp only [List.forall_mem_cons]
    exact ⟨project.pairwise_files _ none, project.pairwise_files _ none,
      project.pairwise_files _ none, fun _ hnone => absurd hnone List.not_mem_nil⟩
  · refine and_congr_right fun hfile => ?_
    obtain ⟨hhas, -, hkind⟩ := (hlogic file).mp hfile
    rw [hmarkup file]
    refine ⟨fun h => h.2.2, fun hkindMarkup => ⟨hhas, ?_, hkindMarkup⟩⟩
    by_contra hends
    rw [hkindMarkup, if_neg hends] at hkind
    cases hkind
  · have hpaths : ∀ file ∈ (project.logicFiles.run memory).1,
        file.path ∉ (project.markupFiles.run memory).1.map SourceFile.path := fun file hfile =>
      path_not_mem_markupFiles hfaultless hlower hdisjoint ((hlogic file).mp hfile).2.1
        memory
    refine ⟨fun file hfile => ⟨?_, hpaths file hfile⟩, ?_⟩
    · obtain ⟨-, hends, hkind⟩ := (hlogic file).mp hfile
      rw [hkind, if_neg (not_endsIn_markup hlower hdisjoint hends)]
    · rw [hall, List.dedup_eq_self, (List.merge_perm_append _).nodup_iff, List.nodup_append]
      refine ⟨(project.nodup_paths_files _ none).of_map _,
        (project.nodup_paths_files _ none).of_map _, ?_⟩
      rintro file hfile other hother rfl
      exact hpaths file hfile (List.mem_map_of_mem hother)

/-- A project whose extension for markup is one for code as well. -/
def overlapping : Project where
  store :=
    { entries := [(["p"], .directory), (["p", "build"], .directory),
        (["p", "build", "card.js"], .file []), (["p", "card.HTML"], .file []),
        (["p", "card.js"], .file []), (["p", "notes.txt"], .file [])] }
  root := ⟨.root, ["p"]⟩
  settings := { logicExtensions := [".js", ".html"] }

theorem withOverrides_overlapping :
    Settings.withOverrides {}
        [("logic_extensions", .list [.scalar (.text "js"), .scalar (.text "Html")])] =
      .ok overlapping.settings := by
  decide +kernel

theorem below_overlapping :
    overlapping.store.below overlapping.root = [⟨.root, ["p", "build"]⟩,
      ⟨.root, ["p", "build", "card.js"]⟩, ⟨.root, ["p", "card.HTML"]⟩, ⟨.root, ["p", "card.js"]⟩,
      ⟨.root, ["p", "notes.txt"]⟩] :=
  Store.below_eq_of_sorted (by decide +kernel) (by decide +kernel)

theorem listed_overlapping :
    (overlapping.logicFiles.run {}).1 =
        [⟨⟨.root, ["p", "card.HTML"]⟩, .markup⟩, ⟨⟨.root, ["p", "card.js"]⟩, .logic⟩] ∧
      (overlapping.markupFiles.run {}).1 = [⟨⟨.root, ["p", "card.HTML"]⟩, .markup⟩] ∧
      (overlapping.allFiles.run {}).1 =
        [⟨⟨.root, ["p", "card.HTML"]⟩, .markup⟩, ⟨⟨.root, ["p", "card.js"]⟩, .logic⟩] := by
  have hfiles (extensions : List String) :
      ((overlapping.listFiles extensions).run {}).1 = _ :=
    files_eq_of_below below_overlapping extensions none
  refine ⟨(hfiles _).trans ?_, (hfiles _).trans ?_, (hfiles _).trans ?_⟩ <;> decide +kernel

/-- The listing of both groups has the file once that stands in both of the others. -/
theorem listings_by_kind_overlapping :
    overlapping.ListedByKind (overlapping.logicFiles.run {}).1 (overlapping.markupFiles.run {}).1
        (overlapping.allFiles.run {}).1 ∧
      ([⟨⟨.root, ["p", "card.HTML"]⟩, .markup⟩, ⟨⟨.root, ["p", "card.js"]⟩, .logic⟩] :
          List SourceFile) =
        ((overlapping.logicFiles.run {}).1.merge (overlapping.markupFiles.run {}).1
          SourceFile.precedes).dedup := by
  have hlower : overlapping.settings.IsLowerCase := by decide +kernel
  obtain ⟨hall, hkinds⟩ := listings_by_kind overlapping rfl {}
  exact ⟨hkinds hlower, listed_overlapping.2.2.symm.trans hall⟩

/-- The extension that both groups have makes a file of markup stand in both listings. -/
theorem listed_twice_overlapping :
    Settings.withOverrides {}
        [("logic_extensions", .list [.scalar (.text "js"), .scalar (.text "Html")])] =
          .ok overlapping.settings ∧
      overlapping.store.unreadable = [] ∧ overlapping.store.unstatable = [] ∧
      ¬ (∀ file ∈ (overlapping.logicFiles.run {}).1, file.kind = .logic) ∧
      ∃ file, file ∈ (overlapping.logicFiles.run {}).1 ∧
        file ∈ (overlapping.markupFiles.run {}).1 := by
  obtain ⟨hlogic, hmarkup, -⟩ := listed_overlapping
  rw [hlogic, hmarkup]
  refine ⟨withOverrides_overlapping, rfl, rfl, by decide, ?_⟩
  exact ⟨⟨⟨.root, ["p", "card.HTML"]⟩, .markup⟩, by decide, by decide⟩

end Project

end Lineage
