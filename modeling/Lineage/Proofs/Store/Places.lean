import Lineage.Store

/-!
# Places and what leads to them

A path is followed name by name, so what it leads to depends on every place on the way: each of them
has to be a directory.  As long as no name leads back, the places on the way are the beginnings of
the path, and the path leads to the place that it spells.

## Main results

* `walk_append`: names that are followed in two goes.
* `exists_mem_of_access`: a file is filed under the names of its path.
* `isFile_eq_true_iff`, `readText_of_access`: what makes a file, and which text it has.
-/

namespace Lineage

theorem IsEntryName.ne_empty {name : String} (hname : IsEntryName name) : name ≠ "" :=
  (ne_of_mem_of_not_mem List.mem_cons_self hname.1).symm

theorem IsEntryName.ne_back {name : String} (hname : IsEntryName name) : name ≠ ".." :=
  (ne_of_mem_of_not_mem (by simp) hname.1).symm

/-- The names of the path are those of a place; none of them leads back. -/
def Path.IsPlain (path : Path) : Prop := IsPlace path.names

instance (path : Path) : Decidable path.IsPlain := inferInstanceAs (Decidable (IsPlace _))

theorem Path.IsPlain.parent {path : Path} (hplain : path.IsPlain) : path.parent.IsPlain :=
  fun name hname => hplain name ((List.dropLast_sublist _).mem hname)

theorem Path.IsPlain.child {path : Path} (hplain : path.IsPlain) {name : String}
    (hname : IsEntryName name) : (path.child name).IsPlain := by
  intro other hother
  rcases List.mem_append.mp hother with hother | hother
  · exact hplain other hother
  · rw [List.mem_singleton.mp hother]
    exact hname

namespace Store

variable {store : Store} {path : Path}

/-! ## Following names -/

theorem walk_nil_eq_ok_iff {place : List String} {entry : Entry} :
    store.walk place [] = .ok entry ↔ store.entryAt place = some entry := by
  rw [walk]
  cases store.entryAt place with
  | none => simp
  | some other => simp

/-- Names that do not lead back can be followed first; whatever comes after them is followed from
the directory that they lead to. -/
theorem walk_append {names : List String} (hplain : IsPlace names)
    (place : List String) {rest : List String} (hrest : rest ≠ []) :
    store.walk place (names ++ rest) =
      match store.walk place names with
      | .ok .directory => store.walk (place ++ names) rest
      | .ok (.file _) => .error .notDirectory
      | .error error => .error error := by
  induction names generalizing place with
  | nil =>
      obtain ⟨name, others, rfl⟩ := List.exists_cons_of_ne_nil hrest
      rw [List.nil_append, List.append_nil, walk, walk]
      cases store.entryAt place with
      | none => rfl
      | some entry => cases entry <;> rfl
  | cons name names ih =>
      have hforward : name ≠ ".." := (hplain name List.mem_cons_self).ne_back
      have hothers := fun other hother => hplain other (List.mem_cons_of_mem _ hother)
      rw [List.cons_append, walk, walk]
      cases store.entryAt place with
      | none => rfl
      | some entry =>
          cases entry with
          | file bytes => rfl
          | directory =>
              simp only [if_neg hforward]
              by_cases hlong : nameLimit < name.utf8ByteSize
              · rw [if_pos hlong, if_pos hlong]
              · rw [if_neg hlong, if_neg hlong, ih hothers, List.append_assoc,
                  List.singleton_append]

/-- A directory is taken as a new start. -/
theorem walk_append_of_directory {names rest : List String}
    (hplain : IsPlace names) {place : List String}
    (hdirectory : store.walk place names = .ok .directory) (hrest : rest ≠ []) :
    store.walk place (names ++ rest) = store.walk (place ++ names) rest := by
  rw [walk_append hplain place hrest, hdirectory]

/-- Names that others can be followed after lead to a directory. -/
theorem walk_eq_directory_of_append {names rest : List String}
    (hplain : IsPlace names) {place : List String} {entry : Entry}
    (h : store.walk place (names ++ rest) = .ok entry) (hrest : rest ≠ []) :
    store.walk place names = .ok .directory := by
  rw [walk_append hplain place hrest] at h
  split at h
  · next hnames => exact hnames
  · cases h
  · cases h

/-- Names that do not lead back lead to the place that they spell. -/
theorem entryAt_of_walk {names : List String} (hplain : IsPlace names)
    {place : List String} {entry : Entry} (h : store.walk place names = .ok entry) :
    store.entryAt (place ++ names) = some entry := by
  induction names generalizing place with
  | nil =>
      rw [List.append_nil]
      exact walk_nil_eq_ok_iff.mp h
  | cons name names ih =>
      have hforward : name ≠ ".." := (hplain name List.mem_cons_self).ne_back
      have hothers := fun other hother => hplain other (List.mem_cons_of_mem _ hother)
      rw [walk, if_neg hforward] at h
      split at h
      · split at h
        · cases h
        · have hentry := ih hothers h
          rwa [List.append_assoc, List.singleton_append] at hentry
      · cases h
      · cases h

/-! ## Access by paths -/

theorem access_eq_ok_iff {entry : Entry} :
    store.access path = .ok entry ↔
      path.hasNull = false ∧ path.byteSize < pathLimit ∧ store.walk [] path.names = .ok entry := by
  rw [access]
  by_cases hnull : path.hasNull = true
  · simp [hnull]
  · by_cases hlong : pathLimit ≤ path.byteSize
    · simp [hnull, hlong, Nat.not_lt_of_le hlong]
    · simp [hnull, hlong, Nat.lt_of_not_le hlong]

theorem access_eq_tooLong_iff :
    store.access path = .error .tooLong ↔
      path.hasNull = false ∧
        (pathLimit ≤ path.byteSize ∨ store.walk [] path.names = .error .tooLong) := by
  rw [access]
  by_cases hnull : path.hasNull = true
  · simp [hnull]
  · by_cases hlong : pathLimit ≤ path.byteSize
    · simp [hnull, hlong]
    · simp [hnull, hlong]

/-- What makes a file, unless that cannot be told. -/
theorem isFile_eq_true_iff :
    store.isFile path = .ok true ↔
      path ∉ store.unstatable ∧ ∃ bytes, store.access path = .ok (.file bytes) := by
  rw [isFile]
  by_cases hfault : path ∈ store.unstatable
  · simp [hfault]
  · rw [if_neg hfault]
    split
    · next bytes haccess => simp [hfault, haccess]
    · next haccess => simp [haccess]
    · next hnofile _ =>
        simp only [Except.ok.injEq, Bool.false_eq_true, false_iff, not_and, not_exists]
        exact fun _ => hnofile

theorem readText_of_access {bytes : List UInt8} (haccess : store.access path = .ok (.file bytes)) :
    store.readText path =
      if path ∈ store.unreadable then .error ⟨path, .denied⟩
      else .ok (Text.ofSourceBytes bytes) := by
  rw [readText, haccess]

/-- A file is filed under the names of its path. -/
theorem exists_mem_of_access (hplain : path.IsPlain) {bytes : List UInt8}
    (haccess : store.access path = .ok (.file bytes)) :
    (path.names, Entry.file bytes) ∈ store.entries := by
  obtain ⟨-, -, hwalk⟩ := access_eq_ok_iff.mp haccess
  have hentry : store.entryAt path.names = some (.file bytes) := entryAt_of_walk hplain hwalk
  cases hnames : path.names with
  | nil =>
      rw [hnames] at hentry
      cases hentry
  | cons name names =>
      rw [hnames] at hentry
      exact Keyed.mem_of_get? hentry

end Store

end Lineage
