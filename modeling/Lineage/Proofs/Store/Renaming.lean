import Lineage.Proofs.Store.Making

/-!
# Files that are renamed

A file is renamed by taking away what stands under its path and making a file with the same bytes
under the other one.  No path leads to anything below a file, so nothing is missed with the file;
and where the new place is free and there are directories on the way to it, making a file there
leaves all others alone.  After a file was renamed the store therefore differs at two places only.

## Main results

* `agreeBut_remove`: taking away a file leaves all other files alone.
* `agreeAt_rename`: a store in which a file was renamed is as before but for the two paths.
* `entryAt_rename_new`, `entryAt_rename_old`: and what stands there.
-/

namespace Lineage.Store

variable {store : Store} {path other : Path} {bytes : List UInt8}

/-- The store with what stands under the path standing under another path. -/
def rename (store : Store) (path other : Path) : Store :=
  match store.entryAt path.names with
  | some entry => (store.remove path).put other entry
  | none => store

/-- A file has a name. -/
theorem names_ne_nil_of_file (hfile : store.entryAt path.names = some (.file bytes)) :
    path.names ≠ [] := by
  intro hroot
  rw [hroot] at hfile
  cases hfile

@[simp] theorem unreadable_rename (store : Store) (path other : Path) :
    (store.rename path other).unreadable = store.unreadable := by
  rw [rename]
  split
  · exact unreadable_put _ _ _
  · rfl

/-! ## Taking away a file -/

theorem after?_isNone_iff {names place : List String} :
    (Text.after? names place).isNone = true ↔ ¬ names <+: place := by
  cases hrest : Text.after? names place with
  | some rest =>
      have hlead : names <+: place := ⟨rest, (Text.after?_eq_some_iff.mp hrest).symm⟩
      simp [hlead]
  | none =>
      refine iff_of_true rfl ?_
      rintro ⟨rest, rfl⟩
      rw [Text.after?_append] at hrest
      cases hrest

theorem entryAt_remove (hnames : path.names ≠ []) (place : List String) :
    (store.remove path).entryAt place =
      if path.names <+: place then none else store.entryAt place := by
  rw [remove, entryAt_keepOnly]
  simp only [after?_isNone_iff]
  by_cases hlead : path.names <+: place
  · have hroot : place ≠ [] := fun hroot => hnames (List.prefix_nil.mp (hroot ▸ hlead))
    simp [hlead, hroot]
  · simp [hlead]

/-- Taking away a file leaves all other files alone; none of them stands below it. -/
theorem agreeBut_remove (hfile : store.entryAt path.names = some (.file bytes)) :
    store.AgreeBut (store.remove path) path := by
  intro file hother
  have hnames := names_ne_nil_of_file hfile
  refine ⟨fun hplain held => ?_, Iff.rfl, Iff.rfl⟩
  rw [access_eq_ok_iff, access_eq_ok_iff, walk_eq_ok_iff hplain, walk_eq_ok_iff hplain]
  simp only [List.nil_append]
  by_cases hbelow : path.names <+: file.names
  · have hgone : (store.remove path).entryAt file.names = none := by
      rw [entryAt_remove hnames, if_pos hbelow]
    refine iff_of_false (fun h => ?_) fun h => ?_
    · have hentry := h.2.2.2.2
      rw [hgone] at hentry
      cases hentry
    · have hdirectory := h.2.2.2.1 path.names (mem_ancestors_iff.mpr ⟨hbelow, hother.symm⟩)
      rw [hfile] at hdirectory
      cases hdirectory
  · have hkept {place : List String} (hlead : place <+: file.names) :
        (store.remove path).entryAt place = store.entryAt place := by
      rw [entryAt_remove hnames, if_neg fun h => hbelow (h.trans hlead)]
    rw [hkept List.prefix_rfl]
    refine and_congr_right fun _ => and_congr_right fun _ => and_congr_right fun _ =>
      and_congr_left fun _ => forall₂_congr fun place hplace => ?_
    rw [hkept (mem_ancestors_iff.mp hplace).1]

/-! ## Renaming a file -/

theorem AgreeAt.trans {first second third : Store} (h : first.AgreeAt second path)
    (hnext : second.AgreeAt third path) : first.AgreeAt third path where
  file_iff hplain held := (hnext.file_iff hplain held).trans (h.file_iff hplain held)
  unreadable_iff := hnext.unreadable_iff.trans h.unreadable_iff
  unstatable_iff := hnext.unstatable_iff.trans h.unstatable_iff

theorem rename_of_file (hfile : store.entryAt path.names = some (.file bytes)) (other : Path) :
    store.rename path other = (store.remove path).put other (.file bytes) := by
  rw [rename, hfile]

theorem agreeAt_rename (hfile : store.entryAt path.names = some (.file bytes))
    (hway : store.HasWayTo other.names) (haway : ¬ path.names <+: other.names)
    (hfree : store.entryAt other.names = none) {place : Path} (hold : place.names ≠ path.names)
    (hnew : place.names ≠ other.names) : store.AgreeAt (store.rename path other) place := by
  have hkept {names : List String} (hlead : names <+: other.names) :
      (store.remove path).entryAt names = store.entryAt names := by
    rw [entryAt_remove (names_ne_nil_of_file hfile), if_neg fun h => haway (h.trans hlead)]
  have hwayKept : (store.remove path).HasWayTo other.names := fun names hnames => by
    rw [hkept (mem_ancestors_iff.mp hnames).1]
    exact hway names hnames
  have hfreeKept : (store.remove path).entryAt other.names ≠ some .directory := by
    rw [hkept List.prefix_rfl, hfree]
    simp
  rw [rename_of_file hfile]
  exact (agreeBut_remove hfile place hold).trans (agreeBut_put hwayKept hfreeKept bytes place hnew)

theorem entryAt_rename_new (hfile : store.entryAt path.names = some (.file bytes))
    (hplain : other.IsPlain) (hnames : other.names ≠ []) :
    (store.rename path other).entryAt other.names = some (.file bytes) := by
  have hplace : IsPlace other.names := hplain
  rw [rename_of_file hfile, entryAt_put, made, if_neg hnames, if_neg (not_not_intro hplace),
    if_pos rfl]

/-- Nothing stands at the old place, unless the way to the new one leads through it. -/
theorem entryAt_rename_old (hfile : store.entryAt path.names = some (.file bytes))
    (haway : ¬ path.names <+: other.names) :
    (store.rename path other).entryAt path.names = none := by
  have hdiffer : path.names ≠ other.names := fun hsame => haway (hsame ▸ List.prefix_rfl)
  rw [rename_of_file hfile, entryAt_put, made, if_neg (names_ne_nil_of_file hfile),
    if_neg hdiffer, if_neg haway, ite_self, entryAt_remove (names_ne_nil_of_file hfile),
    if_pos List.prefix_rfl]

end Lineage.Store
