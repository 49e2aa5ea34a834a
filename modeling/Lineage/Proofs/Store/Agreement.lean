import Lineage.Proofs.Store.Places

/-!
# Stores that agree at a path

Two stores may differ in much and still be the same to whoever looks at one path only.  Whether the
path is a file, and with which text, depends on nothing but the file and the faults at the path.

Looking for a file *beside* another one takes more than that.  The name looked for is put together
from parts, so it may be one that leads back, or none at all; what matters then is that the other
file stands in a directory in both stores.

## Main results

* `AgreeAt.isFile_iff`, `AgreeAt.readText_eq`: a file is the same to both stores.
* `AgreeAt.isFile_beside`: so is whatever is looked for beside a file that both stores have.
-/

namespace Lineage

/-! ## Names put together from parts -/

theorem Path.anchorOf_eq_relative {text : List Char} (h : '/' ∉ text) :
    anchorOf text = .relative := by
  unfold anchorOf
  split
  · exact absurd List.mem_cons_self h
  · exact absurd List.mem_cons_self h
  · exact absurd List.mem_cons_self h
  · rfl

/-- A text without a slash is at most one name. -/
theorem Path.ofString_cases {text : String} (htext : '/' ∉ text.toList) :
    ofString text = ⟨.relative, []⟩ ∨ ofString text = ⟨.relative, [text]⟩ := by
  rw [ofString, anchorOf_eq_relative htext, Text.fields_eq_singleton htext]
  by_cases hproper : isProperName text.toList = true
  · right
    simp [hproper]
  · left
    simp [hproper]

theorem Path.join_relative_nil (base : Path) : base.join ⟨.relative, []⟩ = base := by
  rw [join, List.append_nil]

theorem Path.join_relative_singleton (base : Path) (name : String) :
    base.join ⟨.relative, [name]⟩ = base.child name := rfl

namespace Store

/-! ## The same file -/

/-- The two stores have the same file under the path, or both have none, and the same faults. -/
structure AgreeAt (store other : Store) (path : Path) : Prop where
  file_iff : path.IsPlain → ∀ bytes,
    other.access path = .ok (.file bytes) ↔ store.access path = .ok (.file bytes)
  unreadable_iff : path ∈ other.unreadable ↔ path ∈ store.unreadable
  unstatable_iff : path ∈ other.unstatable ↔ path ∈ store.unstatable

variable {store other : Store} {path file : Path} {names : List String} {name text : String}

namespace AgreeAt

theorem isFile_iff (hagree : store.AgreeAt other path) (hplain : path.IsPlain) :
    other.isFile path = .ok true ↔ store.isFile path = .ok true := by
  rw [isFile_eq_true_iff, isFile_eq_true_iff, hagree.unstatable_iff]
  simp only [hagree.file_iff hplain]

theorem readText_eq (hagree : store.AgreeAt other path) (hplain : path.IsPlain)
    (hfile : store.isFile path = .ok true) : other.readText path = store.readText path := by
  obtain ⟨-, bytes, haccess⟩ := isFile_eq_true_iff.mp hfile
  rw [readText_of_access haccess, readText_of_access ((hagree.file_iff hplain bytes).mpr haccess)]
  simp only [hagree.unreadable_iff]

end AgreeAt

/-! ## Beside a file -/

theorem access_congr (hwalk : other.walk [] path.names = store.walk [] path.names) :
    other.access path = store.access path := by
  rw [access, access, hwalk]

/-- Whether a path is a file is settled by the file there, the faults and the length of the path. -/
theorem isFile_congr (hunstatable : path ∈ other.unstatable ↔ path ∈ store.unstatable)
    (hfile : ∀ bytes,
      other.access path = .ok (.file bytes) ↔ store.access path = .ok (.file bytes))
    (hlong : other.access path = .error .tooLong ↔ store.access path = .error .tooLong) :
    other.isFile path = store.isFile path := by
  rw [isFile, isFile]
  simp only [hunstatable]
  split
  · rfl
  · split
    · next bytes haccess => rw [(hfile bytes).mp haccess]
    · next haccess => rw [hlong.mp haccess]
    · next hnofile hshort =>
        split
        · next bytes haccess => exact absurd ((hfile bytes).mpr haccess) (hnofile bytes)
        · next haccess => exact absurd (hlong.mpr haccess) hshort
        · rfl

/-- A file stands in a directory. -/
theorem walk_parent_of_file (hplain : file.IsPlain) {bytes : List UInt8}
    (hfile : store.access file = .ok (.file bytes)) :
    store.walk [] file.parent.names = .ok .directory := by
  obtain ⟨-, -, hwalk⟩ := access_eq_ok_iff.mp hfile
  have hnames : file.names ≠ [] := by
    intro hnone
    rw [hnone, walk_nil_eq_ok_iff] at hwalk
    cases hwalk
  rw [← List.dropLast_concat_getLast hnames] at hwalk
  exact walk_eq_directory_of_append hplain.parent hwalk (List.cons_ne_nil _ _)

/-- From a directory the way back leads to a directory. -/
theorem walk_back (hplain : IsPlace names)
    (hdirectory : store.walk [] names = .ok .directory) :
    store.walk [] (names ++ [".."]) = .ok .directory := by
  have hentry : store.entryAt names = some .directory := entryAt_of_walk hplain hdirectory
  rw [walk_append_of_directory hplain hdirectory (List.cons_ne_nil _ _), List.nil_append, walk,
    hentry]
  show store.walk names.dropLast [] = .ok .directory
  rw [walk_nil_eq_ok_iff]
  rcases List.eq_nil_or_concat names with rfl | ⟨before, last, rfl⟩
  · rfl
  · rw [List.concat_eq_append] at hplain hdirectory ⊢
    have hbefore := fun name hname => hplain name (List.mem_append_left [last] hname)
    rw [List.dropLast_concat]
    exact entryAt_of_walk hbefore
      (walk_eq_directory_of_append hbefore hdirectory (List.cons_ne_nil _ _))

/-- In a directory only the name itself can be too long. -/
theorem walk_append_singleton_eq_tooLong_iff (hplain : IsPlace names)
    (hdirectory : store.walk [] names = .ok .directory) (hname : IsEntryName name) :
    store.walk [] (names ++ [name]) = .error .tooLong ↔ nameLimit < name.utf8ByteSize := by
  have hentry : store.entryAt names = some .directory := entryAt_of_walk hplain hdirectory
  rw [walk_append_of_directory hplain hdirectory (List.cons_ne_nil _ _), List.nil_append, walk,
    hentry]
  simp only [if_neg hname.ne_back]
  split
  · next hlong => simp [hlong]
  · next hshort =>
      rw [walk]
      split <;> simp [hshort]

/-- What is looked for beside a file is an entry of its own, or a directory wherever the file is
there: the one of the file, or the one above. -/
theorem entry_or_directory_beside (hplain : file.IsPlain) (htext : '/' ∉ text.toList) :
    (IsEntryName text ∧ Path.ofString text = ⟨.relative, [text]⟩) ∨
      ∀ (store : Store) (bytes : List UInt8), store.access file = .ok (.file bytes) →
        store.walk [] (file.parent.join (.ofString text)).names = .ok .directory := by
  rcases Path.ofString_cases htext with hnone | hone
  · right
    intro store bytes hfile
    rw [hnone, Path.join_relative_nil]
    exact walk_parent_of_file hplain hfile
  · by_cases hback : text = ".."
    · right
      intro store bytes hfile
      rw [hone, hback, Path.join_relative_singleton]
      exact walk_back hplain.parent (walk_parent_of_file hplain hfile)
    · have hname : text ∉ ["", ".", ".."] := by
        simp only [List.mem_cons, List.not_mem_nil, or_false, not_or]
        refine ⟨?_, ?_, hback⟩ <;> rintro rfl <;> cases hone
      exact .inl ⟨⟨hname, htext⟩, hone⟩

/-- What is found to be a file beside another one is an entry. -/
theorem entry_of_isFile_beside (hplain : file.IsPlain) (htext : '/' ∉ text.toList)
    {bytes : List UInt8} (hfile : store.access file = .ok (.file bytes))
    (hfound : store.isFile (file.parent.join (.ofString text)) = .ok true) :
    IsEntryName text ∧ Path.ofString text = ⟨.relative, [text]⟩ := by
  refine (entry_or_directory_beside hplain htext).resolve_right fun hdirectory => ?_
  obtain ⟨-, found, haccess⟩ := isFile_eq_true_iff.mp hfound
  obtain ⟨-, -, hwalk⟩ := access_eq_ok_iff.mp haccess
  rw [hdirectory store bytes hfile] at hwalk
  cases hwalk

/-- Whatever is looked for beside a file that both stores have, both find it or both do not. -/
theorem AgreeAt.isFile_beside (hplain : file.IsPlain) (htext : '/' ∉ text.toList)
    {bytes otherBytes : List UInt8} (hfile : store.access file = .ok (.file bytes))
    (hother : other.access file = .ok (.file otherBytes))
    (hagree : store.AgreeAt other (file.parent.join (.ofString text))) :
    other.isFile (file.parent.join (.ofString text)) =
      store.isFile (file.parent.join (.ofString text)) := by
  rcases entry_or_directory_beside hplain htext with ⟨hname, hone⟩ | hdirectory
  · rw [hone, Path.join_relative_singleton] at hagree ⊢
    refine isFile_congr hagree.unstatable_iff (hagree.file_iff (hplain.parent.child hname)) ?_
    rw [access_eq_tooLong_iff, access_eq_tooLong_iff, Path.child,
      walk_append_singleton_eq_tooLong_iff hplain.parent (walk_parent_of_file hplain hfile) hname,
      walk_append_singleton_eq_tooLong_iff hplain.parent (walk_parent_of_file hplain hother) hname]
  · have haccess := access_congr
      ((hdirectory other otherBytes hother).trans (hdirectory store bytes hfile).symm)
    rw [isFile, isFile, haccess]
    simp only [hagree.unstatable_iff]

end Store

end Lineage
