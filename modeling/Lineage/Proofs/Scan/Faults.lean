import Lineage.Proofs.Scan.Listing
import Lineage.Proofs.Scan.Queries
import Lineage.Proofs.Store.Removal
import Mathlib.Data.List.Find

/-!
# Faulty files

Files may be faulty in two ways.  Where it cannot be told whether a path is a file, the listing
passes over the path; where a file cannot be read, whoever reads it passes over it.  Either way an
index answers just as if the faulty files were not there at all, and the order of the others and
what is found in them stay the same.

Locating a name is the exception that comes of reading no more than it has to: markup is known by
its own name, so it need not be readable to be found.

## Main results

* `files_without`: what is left of a listing when files are taken away.
* `seesAlike_without`: the texts in sight are those of the files that are not faulty.
* `answerAlike_without_faulty`: an index answers as it does without the faulty files.
-/

namespace Lineage.Project

/-- The project without some of its files, and without any faults. -/
def without (project : Project) (gone : Path → Bool) : Project :=
  { project with store := project.store.without fun place => gone ⟨project.root.anchor, place⟩ }

variable {project : Project} {gone : Path → Bool} {path : Path}

/-! ## Listings -/

theorem access_without_eq_file_iff (hplain : path.IsPlain)
    (hanchor : path.anchor = project.root.anchor) {bytes : List UInt8} :
    (project.without gone).store.access path = .ok (.file bytes) ↔
      project.store.access path = .ok (.file bytes) ∧ gone path = false := by
  have hpath : (⟨project.root.anchor, path.names⟩ : Path) = path := by rw [← hanchor]
  rw [without, Store.access_without_eq_file_iff hplain, hpath]

/-- Of the paths that can be told to be files, those that are not taken away are left. -/
theorem isFile_without_iff (hunstatable : ∀ path ∈ project.store.unstatable, gone path = true)
    (hplain : path.IsPlain) (hanchor : path.anchor = project.root.anchor) :
    (project.without gone).store.isFile path = .ok true ↔
      project.store.isFile path = .ok true ∧ gone path = false := by
  rw [Store.isFile_eq_true_iff, Store.isFile_eq_true_iff]
  simp only [access_without_eq_file_iff hplain hanchor]
  constructor
  · rintro ⟨-, bytes, haccess, hkept⟩
    refine ⟨⟨fun hfault => ?_, bytes, haccess⟩, hkept⟩
    rw [hunstatable path hfault] at hkept
    cases hkept
  · rintro ⟨⟨-, bytes, haccess⟩, hkept⟩
    exact ⟨List.not_mem_nil, bytes, haccess, hkept⟩

theorem files_without (hunstatable : ∀ path ∈ project.store.unstatable, gone path = true)
    (extensions : List String) (folder : Option String) :
    (project.without gone).files extensions folder =
      (project.files extensions folder).filter fun file => !gone file.path := by
  have hpairwise := (project.pairwise_files extensions folder).filter fun file => !gone file.path
  refine ((project.without gone).pairwise_files extensions folder).eq_of_mem_iff hpairwise ?_
  intro file
  rw [List.mem_filter, mem_files_iff, mem_files_iff, Bool.not_eq_true']
  constructor
  · rintro ⟨hplain, hlies, hthere, hothers⟩
    have hanchor : file.path.anchor = project.root.anchor := Store.anchor_eq_of_liesBelow hlies
    obtain ⟨hfile, hkept⟩ := (isFile_without_iff hunstatable hplain hanchor).mp hthere
    exact ⟨⟨hplain, hlies, hfile, hothers⟩, hkept⟩
  · rintro ⟨⟨hplain, hlies, hfile, hothers⟩, hkept⟩
    have hanchor := Store.anchor_eq_of_liesBelow hlies
    exact ⟨hplain, hlies, (isFile_without_iff hunstatable hplain hanchor).mpr ⟨hfile, hkept⟩,
      hothers⟩

/-! ## Texts -/

/-- Before anything is read the texts in sight are those of the store. -/
theorem view_nothing (project : Project) : project.view {} = project.store.readText := rfl

theorem plain_and_anchor_of_mem_files {extensions : List String} {folder : Option String}
    {file : SourceFile} (hfile : file ∈ project.files extensions folder) :
    file.path.IsPlain ∧ file.path.anchor = project.root.anchor := by
  obtain ⟨hplain, hlies, -⟩ := mem_files_iff.mp hfile
  exact ⟨hplain, Store.anchor_eq_of_liesBelow hlies⟩

theorem view_of_mem_unreadable {extensions : List String} {folder : Option String}
    {file : SourceFile} (hfile : file ∈ project.files extensions folder)
    (hfault : file.path ∈ project.store.unreadable) :
    project.view {} file.path = .error ⟨file.path, .denied⟩ := by
  obtain ⟨-, bytes, haccess⟩ := Store.isFile_eq_true_iff.mp (isFile_of_mem_files hfile)
  rw [view_nothing, Store.readText_of_access haccess, if_pos hfault]

/-- A file that can be read keeps its text when others go. -/
theorem view_without {extensions : List String} {folder : Option String} {file : SourceFile}
    (hfile : file ∈ project.files extensions folder) (hsound : file.path ∉ project.store.unreadable)
    (hkept : gone file.path = false) :
    (project.without gone).view {} file.path = project.view {} file.path := by
  obtain ⟨hplain, hanchor⟩ := plain_and_anchor_of_mem_files hfile
  obtain ⟨-, bytes, haccess⟩ := Store.isFile_eq_true_iff.mp (isFile_of_mem_files hfile)
  have hleft := (access_without_eq_file_iff hplain hanchor).mpr ⟨haccess, hkept⟩
  rw [view_nothing, view_nothing, Store.readText_of_access haccess,
    Store.readText_of_access hleft, if_neg hsound]
  exact if_neg List.not_mem_nil

/-- The path of a file that cannot be read, or that cannot be told to be one. -/
def faulty (project : Project) (path : Path) : Bool :=
  decide (path ∈ project.store.unreadable ∨ path ∈ project.store.unstatable)

theorem faulty_of_mem_unstatable (project : Project) :
    ∀ path ∈ project.store.unstatable, project.faulty path = true :=
  fun _ hfault => decide_eq_true (.inr hfault)

theorem not_mem_unstatable_of_mem_files {extensions : List String} {folder : Option String}
    {file : SourceFile} (hfile : file ∈ project.files extensions folder) :
    file.path ∉ project.store.unstatable :=
  (Store.isFile_eq_true_iff.mp (isFile_of_mem_files hfile)).1

/-- Faulty files have no text in sight, so nothing goes with them. -/
theorem seesAlike_without (project : Project) :
    project.SeesAlike (project.without project.faulty) {} := by
  refine ⟨rfl, fun extensions folder => ?_⟩
  rw [files_without project.faulty_of_mem_unstatable, legible, legible, List.filterMap_filter]
  refine List.filterMap_congr fun file hfile => ?_
  have hstatable := not_mem_unstatable_of_mem_files hfile
  by_cases hfault : file.path ∈ project.store.unreadable
  · have hgone : project.faulty file.path = true := decide_eq_true (.inl hfault)
    rw [hgone, view_of_mem_unreadable hfile hfault]
    rfl
  · have hsound : project.faulty file.path = false := by
      rw [faulty, decide_eq_false_iff_not, not_or]
      exact ⟨hfault, hstatable⟩
    rw [hsound, view_without hfile hfault hsound]
    rfl

/-! ## Locating -/

/-- The path of a file that is needed to locate names and is faulty. -/
def faultyToLocate (project : Project) (path : Path) : Bool :=
  decide (path ∈ project.store.unstatable ∨
    path ∈ project.store.unreadable ∧ project.settings.kindOf path = some .logic)

theorem faultyToLocate_of_mem_unstatable (project : Project) :
    ∀ path ∈ project.store.unstatable, project.faultyToLocate path = true :=
  fun _ hfault => decide_eq_true (.inl hfault)

/-- No file that is taken away would have declared the name, and the others still do as before. -/
theorem answer_declares_without {extensions : List String} {folder : Option String}
    {file : SourceFile} (hfile : file ∈ project.files extensions folder) (name : String) :
    ((!project.faultyToLocate file.path) &&
        (((project.without project.faultyToLocate).declares name file).run {}).1) =
      ((project.declares name file).run {}).1 := by
  obtain ⟨-, -, -, -, -, hkind⟩ := mem_files_iff.mp hfile
  have hstatable := not_mem_unstatable_of_mem_files hfile
  rw [answer_declares, answer_declares]
  cases hcode : file.kind with
  | markup =>
      have hkept : project.faultyToLocate file.path = false := by
        simp [faultyToLocate, hstatable, hkind, hcode]
      rw [hkept]
      rfl
  | logic =>
      by_cases hfault : file.path ∈ project.store.unreadable
      · have hgone : project.faultyToLocate file.path = true := by
          simp [faultyToLocate, hfault, hkind, hcode]
        rw [hgone, view_of_mem_unreadable hfile hfault]
        rfl
      · have hkept : project.faultyToLocate file.path = false := by
          simp [faultyToLocate, hstatable, hfault]
        rw [hkept, view_without hfile hfault hkept]
        rfl

theorem answer_locate_without (name : String) :
    (((project.without project.faultyToLocate).locate name).run {}).1 =
      ((project.locate name).run {}).1 := by
  have hfiles (extensions : List String) :=
    files_without project.faultyToLocate_of_mem_unstatable extensions none
  rw [answer_locate, answer_locate, hfiles, hfiles, ← List.filter_append, List.find?_filter]
  congr 2
  refine List.find?_congr fun file hfile => ?_
  rw [Bool.decide_and, Bool.decide_eq_true, Bool.decide_eq_true]
  rcases List.mem_append.mp hfile with hlogic | hmarkup
  · exact answer_declares_without hlogic name
  · exact answer_declares_without hmarkup name

/-! ## Asking an index -/

theorem rootFault?_without : (project.without gone).rootFault? = project.rootFault? := by
  refine rootFault?_congr ?_
  rw [without, Store.access_without_eq_tooLong_iff]

/-- New indexes over two projects give the same reply to the query, and it is an answer unless the
root is too long a path. -/
def AnswerAlike (project other : Project) (query : Query) : Prop :=
  ((query.ask other).run {}).1 = ((query.ask project).run {}).1 ∧
    (project.rootFault? = none → ∃ answer, ((query.ask project).run {}).1 = .ok answer)

theorem answerAlike_without {query : Query}
    (hsame : ((query.answer (project.without gone)).run {}).1 =
      ((query.answer project).run {}).1) :
    project.AnswerAlike (project.without gone) query := by
  refine ⟨?_, fun hroot => ⟨_, query.answer_ask hroot {}⟩⟩
  rw [query.ask_eq_of_answer_eq rootFault?_without hsame]

/-- A project where one class cannot be read, one template cannot be read, and one path cannot be
told to be a file. -/
def damaged : Project where
  store :=
    { entries := [(["p"], .directory), (["p", "a.js"], .file "class A extends B".toUTF8.toList),
        (["p", "b.js"], .file "class B {}\nclass C extends B {}".toUTF8.toList),
        (["p", "c.html"], .file "<c-d>".toUTF8.toList),
        (["p", "d.js"], .file "class D extends B".toUTF8.toList)]
      unreadable := [⟨.root, ["p", "a.js"]⟩, ⟨.root, ["p", "c.html"]⟩]
      unstatable := [⟨.root, ["p", "d.js"]⟩] }
  root := ⟨.root, ["p"]⟩
  settings := {}

end Lineage.Project
