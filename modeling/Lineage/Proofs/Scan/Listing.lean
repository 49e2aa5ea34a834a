import Lineage.Project
import Lineage.Proofs.Store.Places
import Mathlib.Data.List.Sort

/-!
# Listings

A listing is made by going through everything below the root, but what it holds can be said of each
file by itself: that it is there, where it lies and what it is called.  Since listings are in the
order of paths and have no file twice, two listings with the same files are the same; how the files
were come by does not show.

## Main results

* `pairwise_files`: a listing is in strict order, so it is determined by what it holds.
* `mem_files_iff`: what a listing holds.
* `Store.below_eq_of_sorted`: a store that needs no sorting.
-/

namespace Lineage

/-! ## Order -/

theorem Path.precedes_antisymm {path other : Path} (hanchor : path.anchor = other.anchor)
    (h : path.precedes other = true) (hother : other.precedes path = true) : path = other := by
  obtain ⟨anchor, names⟩ := path
  obtain ⟨otherAnchor, otherNames⟩ := other
  obtain rfl : anchor = otherAnchor := hanchor
  obtain rfl : names = otherNames :=
    (Text.lexicographic_isOrder Text.precedes_isOrder).antisymm _ _ h hother
  rfl

/-- Both paths have one anchor, and the first comes before the second. -/
def Path.Before (path other : Path) : Prop :=
  path.anchor = other.anchor ∧ path ≠ other ∧ path.precedes other = true

/-- The file comes before another one in the order of paths. -/
def SourceFile.Before (file other : SourceFile) : Prop := file.path.Before other.path

theorem SourceFile.Before.not_before {file other : SourceFile} (h : file.Before other) :
    ¬ other.Before file := by
  obtain ⟨hanchor, hne, hprecedes⟩ := h
  rintro ⟨-, -, hback⟩
  exact hne (Path.precedes_antisymm hanchor hprecedes hback)

instance : Std.Asymm SourceFile.Before := ⟨fun _ _ h => h.not_before⟩

theorem Path.anchor_eq_of_relativeTo? {path base rest : Path}
    (h : path.relativeTo? base = some rest) : path.anchor = base.anchor := by
  rw [relativeTo?] at h
  by_cases hanchor : path.anchor = base.anchor
  · exact hanchor
  · rw [if_neg hanchor] at h
    cases h

/-- What lies below a directory has a way there from the directory. -/
theorem Store.exists_rest_of_liesBelow {directory path : Path}
    (h : liesBelow directory path = true) :
    ∃ rest, path.relativeTo? directory = some rest ∧ rest.names ≠ [] := by
  rw [liesBelow] at h
  split at h
  · next rest hrest =>
      refine ⟨rest, hrest, fun hnone => ?_⟩
      rw [hnone] at h
      cases h
  · cases h

theorem Store.anchor_eq_of_liesBelow {directory path : Path}
    (h : liesBelow directory path = true) : path.anchor = directory.anchor := by
  obtain ⟨rest, hrest, -⟩ := exists_rest_of_liesBelow h
  exact Path.anchor_eq_of_relativeTo? hrest

theorem Store.nodup_below (store : Store) (directory : Path) : (store.below directory).Nodup := by
  rw [below, (List.mergeSort_perm _ _).nodup_iff]
  exact firstsBy_id_nodup _

/-- The listing of a directory is in order, and nothing is in it twice. -/
theorem Store.pairwise_below (store : Store) (directory : Path) :
    (store.below directory).Pairwise Path.Before := by
  have hdistinct : (store.below directory).Pairwise (· ≠ ·) := store.nodup_below directory
  refine ((store.below_sorted directory).and hdistinct).imp_of_mem ?_
  intro path other hpath hother h
  obtain ⟨-, hanchor, -⟩ := Store.mem_below.mp hpath
  obtain ⟨-, hanchorOther, -⟩ := Store.mem_below.mp hother
  exact ⟨hanchor.trans hanchorOther.symm, h.2, h.1⟩

/-- A store that is filed in the order of paths is listed as it is filed. -/
theorem Store.below_eq_of_sorted {store : Store} {directory : Path} {paths : List Path}
    (hpaths : firstsBy id ((store.entries.map fun entry => Path.mk directory.anchor entry.1).filter
      fun path => liesBelow directory path && store.accessible path) = paths)
    (hsorted : paths.Pairwise fun path other => path.precedes other = true) :
    store.below directory = paths := by
  rw [below, hpaths]
  exact List.mergeSort_of_pairwise hsorted

namespace Project

variable {project : Project} {extensions : List String} {folder : Option String}

theorem files_eq_of_below {paths : List Path} (hbelow : project.store.below project.root = paths)
    (extensions : List String) (folder : Option String) :
    project.files extensions folder =
      (paths.filter (hasExtension extensions)).filterMap (project.sourceFile? folder) := by
  rw [files, candidates, hbelow]

theorem sourceFile?_eq_some_iff {path : Path} {file : SourceFile} :
    project.sourceFile? folder path = some file ↔
      file.path = path ∧ project.store.isFile path = .ok true ∧
        project.admits folder path = true ∧ project.settings.kindOf path = some file.kind := by
  obtain ⟨filePath, kind⟩ := file
  rw [sourceFile?]
  split
  · next hfile =>
      split
      · next hadmits =>
          rw [Option.map_eq_some_iff]
          constructor
          · rintro ⟨found, hkind, hsame⟩
            cases hsame
            exact ⟨rfl, hfile, hadmits, hkind⟩
          · rintro ⟨rfl, -, -, hkind⟩
            exact ⟨kind, hkind, rfl⟩
      · next hadmits => simp [hadmits]
  · next hfile =>
      refine iff_of_false (by simp) ?_
      rintro ⟨-, hthere, -⟩
      exact hfile hthere

theorem pairwise_files (project : Project) (extensions : List String) (folder : Option String) :
    (project.files extensions folder).Pairwise SourceFile.Before := by
  have hcandidates := (project.store.pairwise_below project.root).filter (hasExtension extensions)
  refine hcandidates.filterMap (project.sourceFile? folder) ?_
  intro path other hbefore file hfile otherFile hother
  obtain ⟨hpath, -⟩ := sourceFile?_eq_some_iff.mp hfile
  obtain ⟨hotherPath, -⟩ := sourceFile?_eq_some_iff.mp hother
  rw [SourceFile.Before, hpath, hotherPath]
  exact hbefore

theorem nodup_paths_files (project : Project) (extensions : List String)
    (folder : Option String) :
    ((project.files extensions folder).map SourceFile.path).Nodup :=
  List.pairwise_map.mpr ((project.pairwise_files extensions folder).imp fun hbefore => hbefore.2.1)

theorem anchor_of_mem_files {file : SourceFile} (hfile : file ∈ project.files extensions folder) :
    file.path.anchor = project.root.anchor := by
  obtain ⟨path, hpath, hsource⟩ := List.mem_filterMap.mp hfile
  obtain ⟨hbelow, -⟩ := List.mem_filter.mp hpath
  obtain ⟨-, hsame, -⟩ := Store.mem_below.mp hbelow
  obtain ⟨rfl, -⟩ := sourceFile?_eq_some_iff.mp hsource
  exact hsame

/-- A listing holds the files that lie below the root, have one of the extensions, are admitted and
are of some kind. -/
theorem mem_files_iff {file : SourceFile} :
    file ∈ project.files extensions folder ↔
      file.path.IsPlain ∧ Store.liesBelow project.root file.path = true ∧
        project.store.isFile file.path = .ok true ∧
        hasExtension extensions file.path = true ∧ project.admits folder file.path = true ∧
        project.settings.kindOf file.path = some file.kind := by
  rw [files, List.mem_filterMap]
  constructor
  · rintro ⟨path, hpath, hfile⟩
    obtain ⟨rfl, hthere, hadmits, hkind⟩ := sourceFile?_eq_some_iff.mp hfile
    obtain ⟨hbelow, hextension⟩ := List.mem_filter.mp hpath
    obtain ⟨⟨entry, hentry⟩, -, hlies, -⟩ := Store.mem_below.mp hbelow
    exact ⟨project.store.filed _ hentry, hlies, hthere, hextension, hadmits, hkind⟩
  · rintro ⟨hplain, hlies, hthere, hextension, hadmits, hkind⟩
    refine ⟨file.path, ?_, sourceFile?_eq_some_iff.mpr ⟨rfl, hthere, hadmits, hkind⟩⟩
    obtain ⟨-, bytes, haccess⟩ := Store.isFile_eq_true_iff.mp hthere
    rw [candidates, List.mem_filter, Store.mem_below]
    have haccessible : project.store.accessible file.path = true := by
      rw [Store.accessible, haccess]
    exact ⟨⟨⟨_, Store.exists_mem_of_access hplain haccess⟩,
      Store.anchor_eq_of_liesBelow hlies, hlies, haccessible⟩, hextension⟩

end Project

end Lineage
