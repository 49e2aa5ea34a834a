import Lineage.Proofs.Scan.Listing
import Lineage.Proofs.Scan.Queries
import Lineage.Proofs.Store.Agreement
import Lineage.Proofs.Store.Removal
import Mathlib.Data.List.Find

/-!
# Directories that are passed over

A listing goes through everything below the root and leaves out what lies in a directory that is
passed over.  Nothing of such a directory may show in what an index answers.  This is said with two
stores: if they agree wherever no directory is passed over on the way from the root, then indexes
over them cannot be told apart by their answers.

A listing keeps to such places by itself, and the texts that are searched are those of listed files.

## Main results

* `listed_of_mem_files`: a listing keeps out of directories that are passed over.
* `files_on`, `seesAlike_on`: stores that agree outside of them give the same listings and texts.
* `answer_locate_on`: and a name is located in the same file.
-/

namespace Lineage.Project

/-- The project in another store. -/
def on (project : Project) (store : Store) : Project := { project with store := store }

/-- The path leads from the root through no directory that is passed over. -/
def Reaches (project : Project) (path : Path) : Prop :=
  (path.relativeTo? project.root).isSome = true ∧
    ∀ directory ∈ project.directories path, project.settings.skips directory = false

/-- The other store has the same root, and the same files and faults wherever no directory is
passed over on the way. -/
structure AgreesWith (project : Project) (other : Store) : Prop where
  access_root : other.access project.root = project.store.access project.root
  agreeAt : ∀ path, project.Reaches path → project.store.AgreeAt other path

variable {project : Project} {other : Store} {extensions : List String} {folder : Option String}
  {file : SourceFile}

/-- The store without the files in directories that are passed over, and without faults. -/
def swept (project : Project) : Store :=
  project.store.without fun place =>
    (project.directories ⟨project.root.anchor, place⟩).any project.settings.skips

theorem agreesWith_swept (hroot : project.store.access project.root = .ok .directory)
    (hunreadable : project.store.unreadable = []) (hunstatable : project.store.unstatable = []) :
    project.AgreesWith project.swept where
  access_root := by rw [hroot, swept, Store.access_without_eq_directory_iff, hroot]
  agreeAt path hreaches := by
    obtain ⟨hbelow, hclear⟩ := hreaches
    obtain ⟨rest, hrest⟩ := Option.isSome_iff_exists.mp hbelow
    obtain ⟨anchor, names⟩ := path
    obtain rfl : anchor = project.root.anchor := Path.anchor_eq_of_relativeTo? hrest
    have hkept : (project.directories ⟨project.root.anchor, names⟩).any
        project.settings.skips = false := by
      rw [List.any_eq_false]
      exact fun directory hdirectory => Bool.eq_false_iff.mp (hclear directory hdirectory)
    refine ⟨fun hplain bytes => ?_, ?_, ?_⟩
    · rw [swept, Store.access_without_eq_file_iff hplain]
      exact and_iff_left hkept
    · rw [hunreadable]
      exact Iff.rfl
    · rw [hunstatable]
      exact Iff.rfl

/-! ## Listings -/

theorem reaches_of_admits {path : Path} (hlies : Store.liesBelow project.root path = true)
    (hadmits : project.admits folder path = true) : project.Reaches path := by
  constructor
  · obtain ⟨rest, hrest, -⟩ := Store.exists_rest_of_liesBelow hlies
    rw [hrest]
    rfl
  · rw [admits, Bool.and_eq_true, Bool.not_eq_true', List.any_eq_false] at hadmits
    intro directory hdirectory
    exact Bool.eq_false_iff.mpr (hadmits.1 directory hdirectory)

theorem admits_none_of_reaches {path : Path} (h : project.Reaches path) :
    project.admits none path = true := by
  rw [admits, Bool.and_eq_true, Bool.not_eq_true', List.any_eq_false]
  refine ⟨?_, rfl⟩
  intro directory hdirectory
  exact Bool.eq_false_iff.mp (h.2 directory hdirectory)

/-- What is so of every path that a listing holds. -/
structure Listed (project : Project) (path : Path) : Prop where
  plain : path.IsPlain
  liesBelow : Store.liesBelow project.root path = true
  reaches : project.Reaches path
  isFile : project.store.isFile path = .ok true

theorem listed_of_mem_files (hfile : file ∈ project.files extensions folder) :
    project.Listed file.path := by
  obtain ⟨hplain, hlies, hthere, -, hadmits, -⟩ := mem_files_iff.mp hfile
  exact ⟨hplain, hlies, reaches_of_admits hlies hadmits, hthere⟩

/-- A file is listed in both stores or in none, if they agree at its path. -/
theorem mem_files_on_iff
    (hagree : project.Reaches file.path → project.store.AgreeAt other file.path) :
    file ∈ (project.on other).files extensions folder ↔ file ∈ project.files extensions folder := by
  rw [mem_files_iff, mem_files_iff]
  have hsame (hplain : file.path.IsPlain) (hlies : Store.liesBelow project.root file.path = true)
      (hadmits : project.admits folder file.path = true) :
      other.isFile file.path = .ok true ↔ project.store.isFile file.path = .ok true :=
    (hagree (reaches_of_admits hlies hadmits)).isFile_iff hplain
  constructor
  · rintro ⟨hplain, hlies, hfile, hextension, hadmits, hkind⟩
    exact ⟨hplain, hlies, (hsame hplain hlies hadmits).mp hfile, hextension, hadmits, hkind⟩
  · rintro ⟨hplain, hlies, hfile, hextension, hadmits, hkind⟩
    exact ⟨hplain, hlies, (hsame hplain hlies hadmits).mpr hfile, hextension, hadmits, hkind⟩

theorem files_on (hagree : project.AgreesWith other) (extensions : List String)
    (folder : Option String) :
    (project.on other).files extensions folder = project.files extensions folder := by
  refine ((project.on other).pairwise_files extensions folder).eq_of_mem_iff
    (project.pairwise_files extensions folder) fun file => ?_
  exact mem_files_on_iff (hagree.agreeAt file.path)

/-! ## Texts -/

/-- A listed file has the same text in both stores, if they agree at its path. -/
theorem Listed.view_of_agreeAt {path : Path} (hlisted : project.Listed path)
    (hagree : project.store.AgreeAt other path) (memory : Memory) :
    (project.on other).view memory path = project.view memory path := by
  have htext : other.readText path = project.store.readText path :=
    hagree.readText_eq hlisted.plain hlisted.isFile
  show memory.peek other path = memory.peek project.store path
  rw [Memory.peek, Memory.peek, htext]

theorem Listed.view_on {path : Path} (hlisted : project.Listed path)
    (hagree : project.AgreesWith other) :
    (project.on other).view {} path = project.view {} path :=
  hlisted.view_of_agreeAt (hagree.agreeAt path hlisted.reaches) {}

theorem seesAlike_on (hagree : project.AgreesWith other) :
    project.SeesAlike (project.on other) {} := by
  refine ⟨rfl, fun extensions folder => ?_⟩
  rw [files_on hagree, legible, legible]
  refine List.filterMap_congr fun file hfile => ?_
  rw [(listed_of_mem_files hfile).view_on hagree]

theorem answer_locate_on (hagree : project.AgreesWith other) (name : String) :
    (((project.on other).locate name).run {}).1 = ((project.locate name).run {}).1 := by
  have hfiles (extensions : List String) := files_on hagree extensions none
  rw [answer_locate, answer_locate, hfiles, hfiles]
  congr 2
  refine List.find?_congr fun file hfile => ?_
  have hview : (project.on other).view {} file.path = project.view {} file.path := by
    rcases List.mem_append.mp hfile with hlogic | hmarkup
    · exact (listed_of_mem_files hlogic).view_on hagree
    · exact (listed_of_mem_files hmarkup).view_on hagree
  rw [answer_declares, answer_declares, hview]

end Lineage.Project
