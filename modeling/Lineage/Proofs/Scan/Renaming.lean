import Lineage.Proofs.Scan.Faults
import Lineage.Proofs.Scan.Inventory
import Lineage.Proofs.Store.Renaming

/-!
# Files whose suffix changes its letter case

The kind of a file and the listings compare extensions without regard to letter case.  A file that
is renamed so that only the letter case of its suffix changes is therefore listed as it was, in the
same listings and as of the same kind, though perhaps at another place in the order.

The rules that nominate children do not all do so.  A file is searched for lists of bases exactly if
its suffix is `.py`, in lower case.  With its suffix written otherwise it is code all the same, and
classes are found in it where they are declared to extend the parent, but the children that come of
a list of bases are not.  Everything else of the nominations is independent of letter case.

## Main results

* `perm_files_renamed`: a listing after renaming is the listing before, with the new path.
* `ChildRule.nominate_eq_iff`: exactly when a rule nominates the same for both paths.
* `children_renamed_exact`: what is nominated after a file was renamed, and what is lost.
-/

namespace Lineage

/-- The two paths differ in nothing but the letter case of the suffix. -/
structure Path.SameButSuffixCase (path other : Path) : Prop where
  parent_eq : other.parent = path.parent
  stem_eq : other.stem = path.stem
  lower_suffix_eq : Unicode.lower other.suffix = Unicode.lower path.suffix

theorem Path.SameButSuffixCase.anchor_eq {path other : Path}
    (hcase : path.SameButSuffixCase other) : other.anchor = path.anchor :=
  (Path.mk.inj hcase.parent_eq).1

theorem Path.SameButSuffixCase.dropLast_eq {path other : Path}
    (hcase : path.SameButSuffixCase other) : other.names.dropLast = path.names.dropLast :=
  (Path.mk.inj hcase.parent_eq).2

/-! ## Rules -/

/-- A rule nominates the same for both paths unless it searches the text of only one of them for
lists of bases, and would find children. -/
theorem ChildRule.nominate_eq_iff {path other : Path} (hcase : path.SameButSuffixCase other)
    (rule : ChildRule) (text parent : String) :
    rule.nominate other text parent = rule.nominate path text parent ↔
      rule = .composition ∨ Lexical.BaseList.children text parent = [] ∨
        (other.suffix = baseListSuffix ↔ path.suffix = baseListSuffix) := by
  cases rule with
  | composition =>
      unfold nominate
      rw [hcase.stem_eq]
      exact iff_of_true rfl (.inl rfl)
  | inheritance =>
      unfold nominate
      rw [List.append_cancel_left_eq, or_iff_right (by decide)]
      by_cases hpath : path.suffix = baseListSuffix
      · by_cases hother : other.suffix = baseListSuffix <;> simp [hpath, hother]
      · by_cases hother : other.suffix = baseListSuffix <;> simp [hpath, hother]

/-- Whatever is not nominated for the other path any more came of a list of bases. -/
theorem ChildRule.of_mem_nominate {path other : Path} (hcase : path.SameButSuffixCase other)
    {rule : ChildRule} {text parent name : String} (hname : name ∈ rule.nominate path text parent)
    (hlost : name ∉ rule.nominate other text parent) :
    rule = .inheritance ∧ path.suffix = baseListSuffix ∧ other.suffix ≠ baseListSuffix ∧
      name ∈ Lexical.BaseList.children text parent := by
  cases rule with
  | composition =>
      unfold nominate at hname hlost
      rw [hcase.stem_eq] at hlost
      exact absurd hname hlost
  | inheritance =>
      unfold nominate at hname hlost
      rw [List.mem_append, not_or] at hlost
      have hbases := (List.mem_append.mp hname).resolve_left hlost.1
      split at hbases
      · next hpath =>
          have hother : other.suffix ≠ baseListSuffix := by
            intro hother
            exact hlost.2 (by rwa [if_pos hother])
          exact ⟨rfl, hpath, hother, hbases⟩
      · cases hbases

namespace Project

variable {project : Project} {path other : Path} {extensions : List String}
  {folder : Option String} {file : SourceFile}

/-- A file below the root can be renamed to the other path: the place is free, a file there can be
told to be one, and it can be read there if it could be before. -/
structure Renaming (project : Project) (path other : Path) : Prop where
  below : Store.liesBelow project.root path = true
  plain : path.IsPlain
  isFile : project.store.isFile path = .ok true
  plain_new : other.IsPlain
  free : project.store.entryAt other.names = none
  isFile_new : (project.store.rename path other).isFile other = .ok true
  unreadable_iff : other ∈ project.store.unreadable ↔ path ∈ project.store.unreadable

/-- The project after the file was renamed. -/
def renamed (project : Project) (path other : Path) : Project :=
  project.on (project.store.rename path other)

/-- Where a place is found after the file was renamed. -/
def movedTo (path other place : Path) : Path := if place = path then other else place

/-- A listed file after the file was renamed. -/
def movedFile (path other : Path) (file : SourceFile) : SourceFile :=
  ⟨movedTo path other file.path, file.kind⟩

/-! ## The two places -/

namespace Renaming

variable (h : project.Renaming path other)
include h

theorem exists_bytes : ∃ bytes, project.store.entryAt path.names = some (.file bytes) ∧
    project.store.access path = .ok (.file bytes) ∧
    (project.store.rename path other).access other = .ok (.file bytes) := by
  obtain ⟨-, bytes, haccess⟩ := Store.isFile_eq_true_iff.mp h.isFile
  obtain ⟨-, -, hwalk⟩ := Store.access_eq_ok_iff.mp haccess
  have hentry : project.store.entryAt path.names = some (.file bytes) :=
    Store.entryAt_of_walk h.plain hwalk
  obtain ⟨-, held, hnew⟩ := Store.isFile_eq_true_iff.mp h.isFile_new
  obtain ⟨-, -, hwalkNew⟩ := Store.access_eq_ok_iff.mp hnew
  have hthere : (project.store.rename path other).entryAt other.names = some (.file held) :=
    Store.entryAt_of_walk h.plain_new hwalkNew
  rw [Store.entryAt_rename_new hentry h.plain_new (Store.names_ne_nil_of_file hthere)] at hthere
  cases hthere
  exact ⟨bytes, hentry, haccess, hnew⟩

theorem names_new_ne_nil : other.names ≠ [] := by
  intro hroot
  have hfree := h.free
  rw [hroot] at hfree
  cases hfree

/-- No listing before holds a file at the new place. -/
theorem names_ne_new (hfile : file ∈ project.files extensions folder) :
    file.path.names ≠ other.names := by
  intro hsame
  obtain ⟨hplain, -, hthere, -⟩ := mem_files_iff.mp hfile
  obtain ⟨-, bytes, haccess⟩ := Store.isFile_eq_true_iff.mp hthere
  obtain ⟨-, -, hwalk⟩ := Store.access_eq_ok_iff.mp haccess
  have hentry : project.store.entryAt file.path.names = some (.file bytes) :=
    Store.entryAt_of_walk hplain hwalk
  rw [hsame, h.free] at hentry
  cases hentry

/-- A listed file with another path stands at another place. -/
theorem names_ne_old_of_ne (hfile : file ∈ project.files extensions folder)
    (hother : file.path ≠ path) : file.path.names ≠ path.names := by
  intro hnames
  have hanchor : path.anchor = project.root.anchor := Store.anchor_eq_of_liesBelow h.below
  have hroot : file.path.anchor = path.anchor := (anchor_of_mem_files hfile).trans hanchor.symm
  apply hother
  show (⟨file.path.anchor, file.path.names⟩ : Path) = path
  rw [hroot, hnames]

/-! ## What stays as it was -/

variable (hcase : path.SameButSuffixCase other)
include hcase

theorem prefix_apart : ¬ path.names <+: other.names := by
  intro hlead
  obtain ⟨bytes, hentry, -⟩ := h.exists_bytes
  have hlength := congrArg List.length hcase.dropLast_eq
  rw [List.length_dropLast, List.length_dropLast] at hlength
  have hpath := List.length_pos_iff.mpr (Store.names_ne_nil_of_file hentry)
  have hother := List.length_pos_iff.mpr h.names_new_ne_nil
  have hsame : path.names = other.names := hlead.eq_of_length (by omega)
  have hfree := h.free
  rw [← hsame, hentry] at hfree
  cases hfree

/-- Elsewhere the store is as it was. -/
theorem agreeAt {place : Path} (hold : place.names ≠ path.names)
    (hnew : place.names ≠ other.names) :
    project.store.AgreeAt (project.store.rename path other) place := by
  obtain ⟨bytes, hentry, haccess, -⟩ := h.exists_bytes
  have hway : project.store.HasWayTo other.names :=
    (Store.hasWayTo_of_access h.plain haccess).of_dropLast_eq
      (Store.names_ne_nil_of_file hentry) h.names_new_ne_nil hcase.dropLast_eq
  exact Store.agreeAt_rename hentry hway (h.prefix_apart hcase) h.free hold hnew

/-- All other files are listed as they were. -/
theorem mem_files_other_iff (hold : file.path.names ≠ path.names)
    (hnew : file.path.names ≠ other.names) :
    file ∈ (project.renamed path other).files extensions folder ↔
      file ∈ project.files extensions folder :=
  mem_files_on_iff fun _ => h.agreeAt hcase hold hnew

/-- A listed file has the text that it had. -/
theorem view_moved (hfile : file ∈ project.files extensions folder) (text : String) :
    (project.renamed path other).view {} (movedTo path other file.path) = .ok text ↔
      project.view {} file.path = .ok text := by
  unfold movedTo
  split
  · next hsame =>
      obtain ⟨bytes, -, haccess, hnew⟩ := h.exists_bytes
      rw [hsame, view_nothing, view_nothing, Store.readText_of_access haccess]
      show (project.store.rename path other).readText other = _ ↔ _
      rw [Store.readText_of_access hnew, Store.unreadable_rename]
      by_cases hfault : path ∈ project.store.unreadable <;> simp [hfault, h.unreadable_iff]
  · next hother =>
      have hagree := h.agreeAt hcase (h.names_ne_old_of_ne hfile hother) (h.names_ne_new hfile)
      have hview := (listed_of_mem_files hfile).view_of_agreeAt hagree {}
      show (project.on _).view {} file.path = _ ↔ _
      rw [hview]

/-! ## Listings -/

/-- No listing after holds a file at the old place. -/
theorem names_ne_old
    (hfile : file ∈ (project.renamed path other).files extensions folder) :
    file.path.names ≠ path.names := by
  intro hsame
  obtain ⟨bytes, hentry, -⟩ := h.exists_bytes
  obtain ⟨hplain, -, hthere, -⟩ := mem_files_iff.mp hfile
  obtain ⟨-, held, haccess⟩ := Store.isFile_eq_true_iff.mp hthere
  obtain ⟨-, -, hwalk⟩ := Store.access_eq_ok_iff.mp haccess
  have hstands : (project.store.rename path other).entryAt file.path.names = some (.file held) :=
    Store.entryAt_of_walk hplain hwalk
  rw [hsame, Store.entryAt_rename_old hentry (h.prefix_apart hcase)] at hstands
  cases hstands

/-- Both files lie below the root in the same directories. -/
theorem below_new :
    Store.liesBelow project.root other = true ∧
      project.directories other = project.directories path := by
  obtain ⟨directories, name, hpath⟩ := Store.liesBelow_iff.mp h.below
  have hfront : other.names.dropLast = project.root.names ++ directories := by
    rw [hcase.dropLast_eq, hpath]
    show (project.root.names ++ (directories ++ [name])).dropLast = _
    rw [← List.append_assoc, List.dropLast_concat]
  have hanchor : other.anchor = project.root.anchor :=
    hcase.anchor_eq.trans (Store.anchor_eq_of_liesBelow h.below)
  have hnew : other = project.root.join
      ⟨.relative, directories ++ [other.names.getLast h.names_new_ne_nil]⟩ := by
    have hnames := List.dropLast_concat_getLast h.names_new_ne_nil
    rw [hfront, List.append_assoc] at hnames
    show (⟨other.anchor, other.names⟩ : Path) =
      ⟨project.root.anchor, project.root.names ++ (directories ++ [_])⟩
    rw [hanchor, hnames]
  constructor
  · exact Store.liesBelow_iff.mpr ⟨_, _, hnew⟩
  · rw [hnew, directories_join, hpath, directories_join]

/-- The renamed file is listed as it was. -/
theorem mem_files_new_iff {kind : FileKind} :
    (⟨other, kind⟩ : SourceFile) ∈ (project.renamed path other).files extensions folder ↔
      (⟨path, kind⟩ : SourceFile) ∈ project.files extensions folder := by
  obtain ⟨hbelow, hdirectories⟩ := h.below_new hcase
  have hextension : hasExtension extensions other = hasExtension extensions path := by
    rw [hasExtension, hasExtension, hcase.lower_suffix_eq]
  have hadmits : (project.renamed path other).admits folder other = project.admits folder path := by
    show project.admits folder other = project.admits folder path
    rw [admits, admits, hdirectories]
  have hkind : (project.renamed path other).settings.kindOf other =
      project.settings.kindOf path := by
    show project.settings.kindOf other = project.settings.kindOf path
    rw [Settings.kindOf, Settings.kindOf, hcase.lower_suffix_eq]
  have hroot : Store.liesBelow (project.renamed path other).root other = true := hbelow
  have hthere : (project.renamed path other).store.isFile other = .ok true := h.isFile_new
  rw [mem_files_iff, mem_files_iff]
  simp only [hextension, hadmits, hkind, hroot, hthere, h.plain, h.plain_new, h.below, h.isFile]

theorem mem_files_renamed_iff :
    file ∈ (project.renamed path other).files extensions folder ↔
      ∃ listed ∈ project.files extensions folder, movedFile path other listed = file := by
  constructor
  · intro hfile
    have hroot : file.path.anchor = (project.renamed path other).root.anchor :=
      anchor_of_mem_files hfile
    have hold := h.names_ne_old hcase hfile
    by_cases hnew : file.path.names = other.names
    · obtain ⟨⟨anchor, names⟩, kind⟩ := file
      obtain rfl : names = other.names := hnew
      obtain rfl : anchor = other.anchor :=
        hroot.trans ((Store.anchor_eq_of_liesBelow h.below).symm.trans hcase.anchor_eq.symm)
      refine ⟨⟨path, kind⟩, (h.mem_files_new_iff hcase).mp hfile, ?_⟩
      rw [movedFile, movedTo, if_pos rfl]
    · have hother : file.path ≠ path := fun hsame => hold (congrArg Path.names hsame)
      refine ⟨file, (h.mem_files_other_iff hcase hold hnew).mp hfile, ?_⟩
      rw [movedFile, movedTo, if_neg hother]
  · rintro ⟨listed, hlisted, rfl⟩
    by_cases hsame : listed.path = path
    · obtain ⟨place, kind⟩ := listed
      obtain rfl : place = path := hsame
      rw [movedFile, movedTo, if_pos rfl]
      exact (h.mem_files_new_iff hcase).mpr hlisted
    · have hold := h.names_ne_old_of_ne hlisted hsame
      rw [movedFile, movedTo, if_neg hsame]
      exact (h.mem_files_other_iff hcase hold (h.names_ne_new hlisted)).mpr hlisted

theorem perm_files_renamed (extensions : List String) (folder : Option String) :
    ((project.renamed path other).files extensions folder).Perm
      ((project.files extensions folder).map (movedFile path other)) := by
  have hnodup (project : Project) : (project.files extensions folder).Nodup :=
    (project.nodup_paths_files extensions folder).of_map _
  have hmoved : ((project.files extensions folder).map (movedFile path other)).Nodup := by
    refine (hnodup project).map_on fun file hfile listed hlisted hsame => ?_
    obtain ⟨hplace, hkind⟩ := SourceFile.mk.inj hsame
    have hfree (file : SourceFile) (hfile : file ∈ project.files extensions folder) :
        file.path ≠ other := fun hnew => h.names_ne_new hfile (congrArg Path.names hnew)
    have hpath : file.path = listed.path := by
      unfold movedTo at hplace
      split at hplace
      · next hfirst =>
          split at hplace
          · next hsecond => rw [hfirst, hsecond]
          · exact absurd hplace.symm (hfree listed hlisted)
      · split at hplace
        · exact absurd hplace (hfree file hfile)
        · exact hplace
    obtain ⟨place, kind⟩ := file
    cases hpath
    cases hkind
    rfl
  refine (List.perm_ext_iff_of_nodup (hnodup _) hmoved).mpr fun file => ?_
  rw [h.mem_files_renamed_iff hcase, List.mem_map]

theorem perm_legible_renamed (extensions : List String) :
    ((project.renamed path other).legible {}
        ((project.renamed path other).files extensions none)).Perm
      ((project.legible {} (project.files extensions none)).map fun (file, text) =>
        (movedFile path other file, text)) := by
  have hlisting : ((project.renamed path other).legible {}
      ((project.renamed path other).files extensions none)).Perm
        ((project.renamed path other).legible {}
          ((project.files extensions none).map (movedFile path other))) :=
    (h.perm_files_renamed hcase extensions none).filterMap _
  refine hlisting.trans (.of_eq ?_)
  rw [legible, legible, List.filterMap_map, List.map_filterMap]
  apply List.filterMap_congr
  intro file hfile
  have hview := h.view_moved hcase hfile
  rw [Function.comp_apply, show (movedFile path other file).path =
    movedTo path other file.path from rfl]
  cases htext : project.view {} file.path with
  | ok text =>
      rw [(hview text).mpr htext]
      rfl
  | error failure =>
      cases hmoved : (project.renamed path other).view {} (movedTo path other file.path) with
      | error _ => rfl
      | ok text =>
          have hback := (hview text).mp hmoved
          rw [htext] at hback
          cases hback

/-! ## Nominations -/

/-- The rules are applied to the same texts, in some order, and to the new path in place of the old
one. -/
theorem perm_children_renamed (rules : List ChildRule) (parent : String) :
    (((project.renamed path other).children rules parent).run {}).1.Perm
      (if parent.isEmpty then []
        else
          (project.legible {} (project.files project.settings.logicExtensions none)).flatMap
            fun (file, text) => nominees rules parent (movedTo path other file.path) text) := by
  rw [answer_children]
  split
  · exact .refl _
  · have htexts := h.perm_legible_renamed hcase project.settings.logicExtensions
    have hnominees := htexts.flatMap_right fun (file, text) =>
      nominees rules parent file.path text
    rwa [List.flatMap_map] at hnominees

end Renaming

/-- The names that the rules nominate for a parent before anything was read. -/
def childNames (project : Project) (rules : List ChildRule) (parent : String) : List String :=
  ((project.children rules parent).run {}).1.map Entity.name

theorem mem_childNames_iff {rules : List ChildRule} {parent name : String} :
    name ∈ project.childNames rules parent ↔
      parent ≠ "" ∧ ∃ file text, file ∈ project.files project.settings.logicExtensions none ∧
        project.view {} file.path = .ok text ∧
        ∃ rule ∈ rules, name ∈ rule.nominate file.path text parent := by
  rw [childNames, answer_children, Ne, ← String.isEmpty_iff]
  cases parent.isEmpty with
  | true => simp
  | false => simp [nominees, and_assoc]

theorem Renaming.mem_childNames_renamed_iff (h : project.Renaming path other)
    (hcase : path.SameButSuffixCase other) {rules : List ChildRule} {parent name : String} :
    name ∈ (project.renamed path other).childNames rules parent ↔
      parent ≠ "" ∧ ∃ file text, file ∈ project.files project.settings.logicExtensions none ∧
        project.view {} file.path = .ok text ∧
        ∃ rule ∈ rules, name ∈ rule.nominate (movedTo path other file.path) text parent := by
  rw [childNames, ((h.perm_children_renamed hcase rules parent).map Entity.name).mem_iff, Ne,
    ← String.isEmpty_iff]
  cases parent.isEmpty with
  | true => simp
  | false => simp [nominees, and_assoc]

/-- The text of the file has a list of bases by which the rules nominate the name. -/
def NominatesByBases (project : Project) (path : Path) (rules : List ChildRule)
    (parent name : String) : Prop :=
  parent ≠ "" ∧ .inheritance ∈ rules ∧
    ∃ file ∈ project.files project.settings.logicExtensions none, file.path = path ∧
      ∃ text, project.view {} path = .ok text ∧ name ∈ Lexical.BaseList.children text parent

theorem Renaming.lost_iff (h : project.Renaming path other)
    (hcase : path.SameButSuffixCase other) {rules : List ChildRule} {parent name : String}
    (hgone : name ∉ (project.renamed path other).childNames rules parent) :
    name ∈ project.childNames rules parent ↔
      path.suffix = ChildRule.baseListSuffix ∧ other.suffix ≠ ChildRule.baseListSuffix ∧
        project.NominatesByBases path rules parent name := by
  constructor
  · intro hname
    obtain ⟨hparent, file, text, hfile, htext, rule, hrule, hnominated⟩ :=
      mem_childNames_iff.mp hname
    have hlost : name ∉ rule.nominate (movedTo path other file.path) text parent := fun hkept =>
      hgone ((h.mem_childNames_renamed_iff hcase).mpr
        ⟨hparent, file, text, hfile, htext, rule, hrule, hkept⟩)
    by_cases hpath : file.path = path
    · rw [movedTo, if_pos hpath] at hlost
      rw [hpath] at hnominated htext
      obtain ⟨rfl, hold, hnew, hbases⟩ := ChildRule.of_mem_nominate hcase hnominated hlost
      exact ⟨hold, hnew, hparent, hrule, file, hfile, hpath, text, htext, hbases⟩
    · rw [movedTo, if_neg hpath] at hlost
      exact absurd hnominated hlost
  · rintro ⟨hold, -, hparent, hrule, file, hfile, rfl, text, htext, hbases⟩
    apply mem_childNames_iff.mpr
    refine ⟨hparent, file, text, hfile, htext, .inheritance, hrule, ?_⟩
    unfold ChildRule.nominate
    rw [if_pos hold]
    exact List.mem_append_right _ hbases

/-- A rule nominates the same for two paths that differ in the letter case of the suffix, unless it
searches the text of only one of them for lists of bases and would find children.  When a file is
renamed from the one path to the other, the rules are applied to the same texts as before.  The
names that are no longer nominated are exactly those that came of a list of bases in the file, if
its suffix was in lower case and is not any more, and that nothing else nominates. -/
theorem children_renamed_exact (hcase : path.SameButSuffixCase other) :
    (∀ (rule : ChildRule) (text parent : String),
      rule.nominate other text parent = rule.nominate path text parent ↔
        rule = .composition ∨ Lexical.BaseList.children text parent = [] ∨
          (other.suffix = ChildRule.baseListSuffix ↔ path.suffix = ChildRule.baseListSuffix)) ∧
      ∀ project : Project, project.Renaming path other → ∀ rules parent,
        (((project.renamed path other).children rules parent).run {}).1.Perm
            (if parent.isEmpty then []
              else
                (project.legible {} (project.files project.settings.logicExtensions none)).flatMap
                  fun (file, text) =>
                    nominees rules parent (movedTo path other file.path) text) ∧
          ∀ name, (name ∈ project.childNames rules parent ∧
              name ∉ (project.renamed path other).childNames rules parent) ↔
            path.suffix = ChildRule.baseListSuffix ∧ other.suffix ≠ ChildRule.baseListSuffix ∧
              project.NominatesByBases path rules parent name ∧
              name ∉ (project.renamed path other).childNames rules parent := by
  refine ⟨ChildRule.nominate_eq_iff hcase, fun project h rules parent => ?_⟩
  refine ⟨h.perm_children_renamed hcase rules parent, fun name => ?_⟩
  constructor
  · rintro ⟨hname, hgone⟩
    obtain ⟨hold, hnew, hbases⟩ := (h.lost_iff hcase hgone).mp hname
    exact ⟨hold, hnew, hbases, hgone⟩
  · rintro ⟨hold, hnew, hbases, hgone⟩
    exact ⟨(h.lost_iff hcase hgone).mpr ⟨hold, hnew, hbases⟩, hgone⟩

/-- A project with two files of code that each have a child of `A`. -/
def derived : Project where
  store :=
    { entries := [(["p"], .directory), (["p", "b.js"], .file "class B extends A {}".toUTF8.toList),
        (["p", "c.py"], .file "class C(A):".toUTF8.toList)] }
  root := ⟨.root, ["p"]⟩
  settings := {}

theorem below_derived :
    derived.store.below derived.root = [⟨.root, ["p", "b.js"]⟩, ⟨.root, ["p", "c.py"]⟩] :=
  Store.below_eq_of_sorted (by decide +kernel) (by decide)

/-- Renaming `b.js` to `b.JS` loses nothing.  Renaming `c.py` to `c.PY` loses the child of `A`. -/
theorem children_renamed_exact_derived :
    (Path.SameButSuffixCase ⟨.root, ["p", "b.js"]⟩ ⟨.root, ["p", "b.JS"]⟩ ∧
      derived.Renaming ⟨.root, ["p", "b.js"]⟩ ⟨.root, ["p", "b.JS"]⟩ ∧
      ∀ name ∈ derived.childNames [.inheritance] "A",
        name ∈ (derived.renamed ⟨.root, ["p", "b.js"]⟩ ⟨.root, ["p", "b.JS"]⟩).childNames
          [.inheritance] "A") ∧
    (Path.SameButSuffixCase ⟨.root, ["p", "c.py"]⟩ ⟨.root, ["p", "c.PY"]⟩ ∧
      derived.Renaming ⟨.root, ["p", "c.py"]⟩ ⟨.root, ["p", "c.PY"]⟩ ∧
      (((derived.renamed ⟨.root, ["p", "c.py"]⟩ ⟨.root, ["p", "c.PY"]⟩).children
        [.inheritance] "A").run {}).1.Perm [⟨"B", ⟨.root, ["p", "b.js"]⟩⟩]) := by
  have hjs : Path.SameButSuffixCase ⟨.root, ["p", "b.js"]⟩ ⟨.root, ["p", "b.JS"]⟩ :=
    ⟨by decide, by decide, by decide⟩
  have hpy : Path.SameButSuffixCase ⟨.root, ["p", "c.py"]⟩ ⟨.root, ["p", "c.PY"]⟩ :=
    ⟨by decide, by decide, by decide +kernel⟩
  have hrenamingJs : derived.Renaming ⟨.root, ["p", "b.js"]⟩ ⟨.root, ["p", "b.JS"]⟩ :=
    ⟨rfl, by decide, by decide +kernel, by decide +kernel, by decide +kernel, by decide +kernel,
      by decide⟩
  have hrenamingPy : derived.Renaming ⟨.root, ["p", "c.py"]⟩ ⟨.root, ["p", "c.PY"]⟩ :=
    ⟨by decide +kernel, by decide +kernel, by decide +kernel, by decide +kernel, by decide, rfl,
      by decide +kernel⟩
  refine ⟨⟨hjs, hrenamingJs, ?_⟩, hpy, hrenamingPy, ?_⟩
  · intro name hname
    by_contra hgone
    obtain ⟨-, hlost⟩ := (children_renamed_exact hjs).2 derived hrenamingJs [.inheritance] "A"
    obtain ⟨hsuffix, -⟩ := (hlost name).mp ⟨hname, hgone⟩
    revert hsuffix
    decide
  · obtain ⟨hperm, -⟩ := (children_renamed_exact hpy).2 derived hrenamingPy [.inheritance] "A"
    refine hperm.trans (.of_eq ?_)
    rw [files_eq_of_below below_derived]
    decide +kernel

/-- With the suffix in capitals the rule does not nominate the class in the same text any more, and
after the file was renamed nothing else does. -/
theorem lost_derived :
    Path.SameButSuffixCase ⟨.root, ["p", "c.py"]⟩ ⟨.root, ["p", "c.PY"]⟩ ∧
      ChildRule.inheritance.nominate ⟨.root, ["p", "c.py"]⟩ "class C(A):" "A" = ["C"] ∧
      ChildRule.inheritance.nominate ⟨.root, ["p", "c.PY"]⟩ "class C(A):" "A" = [] ∧
      "C" ∈ derived.childNames ChildRule.all "A" ∧
      "C" ∉ (derived.renamed ⟨.root, ["p", "c.py"]⟩ ⟨.root, ["p", "c.PY"]⟩).childNames
        ChildRule.all "A" := by
  have hbelow : (derived.renamed ⟨.root, ["p", "c.py"]⟩ ⟨.root, ["p", "c.PY"]⟩).store.below
      derived.root = [⟨.root, ["p", "b.js"]⟩, ⟨.root, ["p", "c.PY"]⟩] :=
    Store.below_eq_of_sorted rfl (by decide)
  refine ⟨⟨by decide, by decide +kernel, by decide +kernel⟩, rfl, by decide +kernel,
    ?_, ?_⟩
  · rw [childNames, answer_children, files_eq_of_below below_derived]
    decide +kernel
  · rw [childNames, answer_children, files_eq_of_below hbelow]
    decide +kernel

end Project

end Lineage
