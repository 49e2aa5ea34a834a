import Lineage.Proofs.Scan.ExtensionGroups
import Lineage.Proofs.Store.Making

/-!
# Which file a name is located in

Code is searched before markup, and each in the order of paths.  Listings are in strict order, so
the first file that is met is the least one, and there is no other that could be.  No file of markup
can come before one of code, and code that cannot be read is as good as none.

What is located does not depend on files that come later in this order.  If a file of code is
located, any other file may be made, changed or removed that comes after it or is none of code.

## Main results

* `find?_eq_some_iff_isFirst`: what is met first in a listing is the least of all.
* `locate_eq_none_iff`, `locate_eq_some_iff`: what is located.
* `rootFault?_eq_none_of_mem_files`: a root with a file is none that is refused.
* `locate_least`: all of this, and which changes do not show.
-/

namespace Lineage

/-! ## The first of some files -/

/-- Of the files that have the property this is the least one, in the order of paths. -/
structure IsFirst (files : List SourceFile) (property : SourceFile → Prop) (file : SourceFile) :
    Prop where
  mem : file ∈ files
  holds : property file
  least : ∀ other ∈ files, property other → other = file ∨ file.Before other

theorem IsFirst.unique {files : List SourceFile} {property : SourceFile → Prop}
    {file other : SourceFile} (hfile : IsFirst files property file)
    (hother : IsFirst files property other) : other = file := by
  rcases hfile.least other hother.mem hother.holds with hsame | hbefore
  · exact hsame
  · rcases hother.least file hfile.mem hfile.holds with hsame | hback
    · exact hsame.symm
    · exact absurd hback hbefore.not_before

theorem isFirst_of_find? {files : List SourceFile} {test : SourceFile → Bool} {file : SourceFile}
    (hsorted : files.Pairwise SourceFile.Before) (hfound : files.find? test = some file) :
    IsFirst files (fun file => test file = true) file := by
  obtain ⟨htest, passed, behind, rfl, hpassed⟩ := List.find?_eq_some_iff_append.mp hfound
  refine ⟨by simp, htest, fun other hother htestOther => ?_⟩
  rcases List.mem_append.mp hother with hother | hother
  · have hfailed := hpassed other hother
    rw [htestOther] at hfailed
    cases hfailed
  · rcases List.mem_cons.mp hother with hsame | hother
    · exact .inl hsame
    · have hrest := (List.pairwise_append.mp hsorted).2.1
      exact .inr (List.rel_of_pairwise_cons hrest hother)

theorem find?_eq_some_iff_isFirst {files : List SourceFile} {test : SourceFile → Bool}
    {file : SourceFile} (hsorted : files.Pairwise SourceFile.Before) :
    files.find? test = some file ↔ IsFirst files (fun file => test file = true) file := by
  constructor
  · exact isFirst_of_find? hsorted
  · intro hfirst
    have hthere : (files.find? test).isSome = true :=
      List.find?_isSome.mpr ⟨file, hfirst.mem, hfirst.holds⟩
    obtain ⟨found, hfound⟩ := Option.isSome_iff_exists.mp hthere
    rw [hfound, hfirst.unique (isFirst_of_find? hsorted hfound)]

/-! ## Paths -/

theorem Path.byteSize_le_byteSize_join (base rest : Path) (hrest : rest.anchor = .relative) :
    base.byteSize ≤ (base.join rest).byteSize := by
  have hgrows (names : List String) (size : Nat) :
      size ≤ names.foldl (fun size name => size + name.utf8ByteSize + 1) size := by
    induction names generalizing size with
    | nil => exact Nat.le_refl size
    | cons name names ih =>
        have hothers := ih (size + name.utf8ByteSize + 1)
        rw [List.foldl_cons]
        omega
  rw [Path.join, hrest]
  show _ ≤ (base.names ++ rest.names).foldl _ 0
  rw [List.foldl_append]
  exact hgrows rest.names base.byteSize

theorem Path.endsIn_congr {path other : Path} (hnames : path.names = other.names)
    {extensions : List String} : path.EndsIn extensions ↔ other.EndsIn extensions := by
  rw [EndsIn, EndsIn, suffix, suffix, Path.name, Path.name, hnames]

namespace Project

variable {project : Project} {memory : Memory} {name : String} {file : SourceFile}

/-! ## What declares a name -/

/-- The file is code in sight that has a class of that name, or markup that is named like it. -/
def Declares (project : Project) (memory : Memory) (name : String) (file : SourceFile) : Prop :=
  match file.kind with
  | .logic => ∃ text, project.view memory file.path = .ok text ∧
      Lexical.Declaration.declares text name = true
  | .markup => Unicode.lower file.path.stem = Unicode.lower name

theorem declares_iff :
    ((project.declares name file).run memory).1 = true ↔ project.Declares memory name file := by
  rw [answer_declares, Declares]
  cases file.kind with
  | markup => exact beq_iff_eq
  | logic =>
      dsimp only
      cases project.view memory file.path with
      | ok text => simp
      | error failure => simp

/-- The name is located in the file: of the code that declares the name, it is the first file, or no
code declares it and it is the first file of the markup that does. -/
def Locates (project : Project) (memory : Memory) (name : String) (file : SourceFile) : Prop :=
  IsFirst (project.files project.settings.logicExtensions none)
      (project.Declares memory name) file ∨
    (∀ other ∈ project.files project.settings.logicExtensions none,
        ¬ project.Declares memory name other) ∧
      IsFirst (project.files project.settings.markupExtensions none)
        (project.Declares memory name) file

theorem locate_eq_none_iff :
    ((project.locate name).run memory).1 = none ↔
      name = "" ∨ ∀ file, file ∈ project.files project.settings.logicExtensions none ∨
        file ∈ project.files project.settings.markupExtensions none →
          ¬ project.Declares memory name file := by
  rw [answer_locate]
  split
  · next hempty => exact iff_of_true rfl (.inl (String.isEmpty_iff.mp hempty))
  · next hname =>
      rw [or_iff_right (mt String.isEmpty_iff.mpr hname), Option.map_eq_none_iff,
        List.find?_eq_none]
      simp only [List.mem_append, declares_iff]

theorem locate_eq_some_iff {path : Path} :
    ((project.locate name).run memory).1 = some path ↔
      name ≠ "" ∧ ∃ file, file.path = path ∧ project.Locates memory name file := by
  have hfirst (extensions : List String) (file : SourceFile) :
      (project.files extensions none).find? (fun file =>
        ((project.declares name file).run memory).1) = some file ↔
      IsFirst (project.files extensions none) (project.Declares memory name) file := by
    rw [find?_eq_some_iff_isFirst (project.pairwise_files extensions none)]
    simp only [declares_iff]
  rw [answer_locate]
  split
  · next hempty => exact iff_of_false (by simp) fun h => h.1 (String.isEmpty_iff.mp hempty)
  · next hname =>
      rw [and_iff_right (mt String.isEmpty_iff.mpr hname), Option.map_eq_some_iff]
      refine exists_congr fun file => ?_
      rw [List.find?_append, Option.or_eq_some_iff, hfirst, hfirst, List.find?_eq_none, and_comm]
      simp only [declares_iff]
      rfl

/-! ## Roots that are not refused -/

/-- A root that has a file of a listing below it is not too long a path. -/
theorem rootFault?_eq_none_of_mem_files {extensions : List String} {folder : Option String}
    (hfile : file ∈ project.files extensions folder) : project.rootFault? = none := by
  obtain ⟨hplain, hlies, hthere, -⟩ := mem_files_iff.mp hfile
  obtain ⟨rest, hrest, hnames⟩ := Store.exists_rest_of_liesBelow hlies
  obtain ⟨hanchor, hpath⟩ := Path.relativeTo?_eq_some_iff.mp hrest
  obtain ⟨-, bytes, haccess⟩ := Store.isFile_eq_true_iff.mp hthere
  obtain ⟨-, hsize, hwalk⟩ := Store.access_eq_ok_iff.mp haccess
  have hsplit : file.path.names = project.root.names ++ rest.names := by
    rw [hpath, Path.join, hanchor]
  rw [hsplit] at hwalk
  have hrootPlain : IsPlace project.root.names := by
    intro name hname
    refine hplain name ?_
    rw [hsplit]
    exact List.mem_append_left _ hname
  have hdirectory : project.store.walk [] project.root.names = .ok .directory :=
    Store.walk_eq_directory_of_append hrootPlain hwalk hnames
  rw [Option.eq_none_iff_forall_ne_some]
  intro fault hfault
  obtain ⟨hlong, -⟩ := rootFault?_eq_some_iff.mp hfault
  obtain ⟨-, hlong | hlong⟩ := Store.access_eq_tooLong_iff.mp hlong
  · have hless := Path.byteSize_le_byteSize_join project.root rest hanchor
    rw [← hpath] at hless
    omega
  · rw [hdirectory] at hlong
    cases hlong

/-! ## Changes that do not show -/

section

variable {later : Store} {changed : Path} {extensions : List String} {folder : Option String}

theorem declares_on_iff (hagree : project.store.AgreeBut later changed)
    (hother : file.path.names ≠ changed.names) (hfile : file ∈ project.files extensions folder) :
    (project.on later).Declares memory name file ↔ project.Declares memory name file := by
  rw [Declares, Declares, (listed_of_mem_files hfile).view_of_agreeAt (hagree _ hother) memory]

theorem endsIn_of_mem_files (hfile : file ∈ project.files extensions folder) :
    file.path.EndsIn extensions := by
  obtain ⟨path, hpath, hsource⟩ := List.mem_filterMap.mp hfile
  obtain ⟨rfl, -⟩ := sourceFile?_eq_some_iff.mp hsource
  exact Settings.hasExtension_iff.mp (List.mem_filter.mp hpath).2

/-- A listed file with the names of a path that comes later, or is not of the extensions, comes
later. -/
theorem before_of_names_eq {listed : SourceFile} (hanchor : listed.path.anchor = file.path.anchor)
    (hextension : listed.path.EndsIn extensions)
    (hbehind : file.path.Before changed ∨ ¬ changed.EndsIn extensions)
    (hnames : listed.path.names = changed.names) : file.Before listed := by
  rcases hbehind with hbefore | hforeign
  · have hsame : listed.path = changed := by
      show listed.path = ⟨changed.anchor, changed.names⟩
      rw [← hbefore.1, ← hanchor, ← hnames]
    rw [SourceFile.Before, hsame]
    exact hbefore
  · exact absurd ((Path.endsIn_congr hnames).mp hextension) hforeign

/-- The first file that declares a name stays the first if another one comes, goes or changes, and
this one comes later or is not of the extensions. -/
theorem isFirst_on (hagree : project.store.AgreeBut later changed)
    (hfirst : IsFirst (project.files extensions folder) (project.Declares memory name) file)
    (hbehind : file.path.Before changed ∨ ¬ changed.EndsIn extensions) :
    IsFirst ((project.on later).files extensions folder)
      ((project.on later).Declares memory name) file := by
  have hother : file.path.names ≠ changed.names := by
    intro hnames
    have hself : file.Before file :=
      before_of_names_eq rfl (endsIn_of_mem_files hfirst.mem) hbehind hnames
    exact hself.not_before hself
  refine ⟨(mem_files_on_iff fun _ => hagree _ hother).mpr hfirst.mem,
    (declares_on_iff hagree hother hfirst.mem).mpr hfirst.holds, ?_⟩
  intro listed hlisted hdeclares
  by_cases hnames : listed.path.names = changed.names
  · have hanchor : listed.path.anchor = file.path.anchor :=
      (anchor_of_mem_files hlisted).trans (anchor_of_mem_files hfirst.mem).symm
    exact .inr (before_of_names_eq hanchor (endsIn_of_mem_files hlisted) hbehind hnames)
  · have hbefore := (mem_files_on_iff fun _ => hagree _ hnames).mp hlisted
    exact hfirst.least listed hbefore ((declares_on_iff hagree hnames hbefore).mp hdeclares)

end

/-- A project where three files declare one class, the first of which cannot be read, and a file of
markup is named like it. -/
def declared : Project where
  store :=
    { entries := [(["p"], .directory), (["p", "a.js"], .file "class X {}".toUTF8.toList),
        (["p", "b"], .directory), (["p", "b", "c.js"], .file "class X {}".toUTF8.toList),
        (["p", "b-c.js"], .file "class X {}".toUTF8.toList), (["p", "b.html"], .file []),
        (["p", "x.html"], .file [])]
      unreadable := [⟨.root, ["p", "a.js"]⟩] }
  root := ⟨.root, ["p"]⟩
  settings := {}

end Project

end Lineage
