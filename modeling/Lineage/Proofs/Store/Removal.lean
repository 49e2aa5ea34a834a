import Lineage.Proofs.Store.Places

/-!
# Files taken away

When files are taken away from a store, with the directories left as they are, other paths lead to
what they led to before.  Only directories are passed on the way, so a file that is gone is missed
by none but its own path.

## Main results

* `access_without_eq_file_iff`: which files are left.
* `access_without_eq_tooLong_iff`: whether a path is too long is another matter.
-/

namespace Lineage.Store

/-- A file stands at the place. -/
def holdsFile (store : Store) (place : List String) : Bool :=
  match store.entryAt place with
  | some (.file _) => true
  | _ => false

/-- The store without the files at some places, and without any faults. -/
def without (store : Store) (gone : List String → Bool) : Store :=
  { store.keepOnly fun place => !(gone place && store.holdsFile place) with
    unreadable := []
    unstatable := [] }

variable {store : Store} {gone : List String → Bool}

theorem entryAt_without (place : List String) :
    (store.without gone).entryAt place =
      match store.entryAt place with
      | some (.file bytes) => if gone place then none else some (.file bytes)
      | entry? => entry? := by
  have hkept : (store.without gone).entryAt place =
      (store.keepOnly fun place => !(gone place && store.holdsFile place)).entryAt place := rfl
  rw [hkept, entryAt_keepOnly, holdsFile]
  cases hentry : store.entryAt place with
  | none => simp
  | some entry =>
      cases entry with
      | directory => simp
      | file bytes =>
          have hroot : place ≠ [] := by
            rintro rfl
            cases hentry
          cases gone place <;> simp [hroot]

/-- Neither a directory nor a name that is too long goes with the files. -/
theorem walk_without_eq_iff {place names : List String} {result : Except AccessError Entry}
    (hresult : result = .ok .directory ∨ result = .error .tooLong) :
    (store.without gone).walk place names = result ↔ store.walk place names = result := by
  induction names generalizing place with
  | nil =>
      rw [walk, walk, entryAt_without]
      cases store.entryAt place with
      | none => rfl
      | some entry =>
          cases entry with
          | directory => rfl
          | file bytes =>
              rcases hresult with rfl | rfl <;> cases gone place <;> simp
  | cons name names ih =>
      rw [walk, walk, entryAt_without]
      cases store.entryAt place with
      | none => rfl
      | some entry =>
          cases entry with
          | directory =>
              by_cases hlong : nameLimit < name.utf8ByteSize
              · simp only [if_pos hlong]
              · simp only [if_neg hlong, ih]
          | file bytes =>
              rcases hresult with rfl | rfl <;> cases gone place <;> simp

/-- A file is left unless it is one of those taken away. -/
theorem walk_without_eq_file_iff {names : List String}
    (hplain : IsPlace names) {place : List String} {bytes : List UInt8} :
    (store.without gone).walk place names = .ok (.file bytes) ↔
      store.walk place names = .ok (.file bytes) ∧ gone (place ++ names) = false := by
  induction names generalizing place with
  | nil =>
      rw [walk_nil_eq_ok_iff, walk_nil_eq_ok_iff, entryAt_without, List.append_nil]
      cases store.entryAt place with
      | none => simp
      | some entry =>
          cases entry with
          | directory => simp
          | file bytes => cases gone place <;> simp
  | cons name names ih =>
      have hforward : name ≠ ".." := (hplain name List.mem_cons_self).ne_back
      have hothers := fun other hother => hplain other (List.mem_cons_of_mem _ hother)
      rw [walk, walk, if_neg hforward, entryAt_without]
      cases store.entryAt place with
      | none => simp
      | some entry =>
          cases entry with
          | directory =>
              by_cases hlong : nameLimit < name.utf8ByteSize
              · simp [if_pos hlong]
              · simp only [if_neg hlong, ih hothers, List.append_assoc, List.singleton_append]
          | file bytes => cases gone place <;> simp

theorem access_without_eq_tooLong_iff {path : Path} :
    (store.without gone).access path = .error .tooLong ↔ store.access path = .error .tooLong := by
  rw [access, access]
  split
  · rfl
  · split
    · rfl
    · exact walk_without_eq_iff (.inr rfl)

theorem access_without_eq_directory_iff {path : Path} :
    (store.without gone).access path = .ok .directory ↔ store.access path = .ok .directory := by
  rw [access_eq_ok_iff, access_eq_ok_iff, walk_without_eq_iff (.inl rfl)]

theorem access_without_eq_file_iff {path : Path} (hplain : path.IsPlain) {bytes : List UInt8} :
    (store.without gone).access path = .ok (.file bytes) ↔
      store.access path = .ok (.file bytes) ∧ gone path.names = false := by
  rw [access_eq_ok_iff, access_eq_ok_iff, walk_without_eq_file_iff hplain, List.nil_append]
  simp only [and_assoc]

end Lineage.Store
