import Lineage.Distinct
import Lineage.Keyed
import Lineage.Path
import Lineage.Text.Newlines
import Lineage.Text.Quoted

/-!
# Stores of files

A store holds directories and files with their bytes, each under the names that lead to it from the
root directory. Some paths may be faulty: they cannot be read, or it cannot be told whether they
are files. Access to a path follows its names one by one, so `..` leads to the directory that holds
the current one, and each name but the last must lead to a directory. Names and paths are bounded in
length, and a path with a null character is refused before it is followed.

Whatever a store holds is filed under names that an entry can have; a store that holds anything else
cannot be built.

## Main results

* `mem_below`: the listing of a directory holds exactly the accessible paths below it.
* `below_sorted`: the listing is in the order of paths.
-/

namespace Lineage

/-- What a store holds at a place. -/
inductive Entry where
  | file (bytes : List UInt8)
  | directory
  deriving Repr, DecidableEq

/-- A name that an entry can be filed under: it has no slash, and it does not stand for a directory
that is there already. -/
def IsEntryName (name : String) : Prop := name ∉ ["", ".", ".."] ∧ '/' ∉ name.toList

instance (name : String) : Decidable (IsEntryName name) := inferInstanceAs (Decidable (_ ∧ _))

/-- Names under which there can be an entry. -/
def IsPlace (names : List String) : Prop := ∀ name ∈ names, IsEntryName name

instance (names : List String) : Decidable (IsPlace names) :=
  inferInstanceAs (Decidable (∀ _ ∈ _, _))

/-- Directories and files, and the paths whose access fails. -/
structure Store where
  entries : Keyed (List String) Entry := []
  /-- Paths whose text cannot be read. -/
  unreadable : List Path := []
  /-- Paths of which it cannot be told whether they are files. -/
  unstatable : List Path := []
  /-- Every entry is filed in a place. -/
  filed : ∀ entry ∈ entries, IsPlace entry.1 := by decide +kernel

/-- Why a path cannot be accessed. -/
inductive AccessError where
  /-- The path is faulty. -/
  | denied
  /-- There is nothing under the path. -/
  | notFound
  /-- A directory stands where a file is needed. -/
  | isDirectory
  /-- A file stands where the path goes on. -/
  | notDirectory
  /-- The path, or a name on it that is looked up, is too long. -/
  | tooLong
  /-- A name on the path has a null character. -/
  | nullCharacter
  deriving Repr, DecidableEq

/-- The reason in words, for access to a path. -/
def AccessError.reason (path : Path) : AccessError → String
  | denied => "denied"
  | notFound => "[Errno 2] No such file or directory: " ++ Text.quoted path.toString
  | isDirectory => "[Errno 21] Is a directory: " ++ Text.quoted path.toString
  | notDirectory => "[Errno 20] Not a directory: " ++ Text.quoted path.toString
  | tooLong => "[Errno 36] File name too long: " ++ Text.quoted path.toString
  | nullCharacter => "embedded null byte"

/-- A file that could not be read. -/
structure ReadFailure where
  path : Path
  error : AccessError
  deriving Repr, DecidableEq

/-- The failure in words. -/
def ReadFailure.message (failure : ReadFailure) : String :=
  "Cannot read " ++ failure.path.toString ++ ": " ++ failure.error.reason failure.path

namespace Store

/-- The store without entries. -/
def empty : Store where
  filed _ member := (List.not_mem_nil member).elim

/-- What stands at a place; the root directory is always there. -/
def entryAt (store : Store) : List String → Option Entry
  | [] => some .directory
  | place => store.entries.get? place

@[simp] theorem entryAt_nil (store : Store) : store.entryAt [] = some .directory := rfl

/-- The greatest number of bytes in a name. -/
def nameLimit : Nat := 255

/-- The least number of bytes that a path cannot have. -/
def pathLimit : Nat := 4096

/-- What some names lead to from a place. -/
def walk (store : Store) : (place names : List String) → Except AccessError Entry
  | place, [] =>
      match store.entryAt place with
      | some entry => .ok entry
      | none => .error .notFound
  | place, name :: names =>
      match store.entryAt place with
      | some .directory =>
          if nameLimit < name.utf8ByteSize then .error .tooLong
          else walk store (if name = ".." then place.dropLast else place ++ [name]) names
      | some (.file _) => .error .notDirectory
      | none => .error .notFound

/-- What a path leads to. -/
def access (store : Store) (path : Path) : Except AccessError Entry :=
  if path.hasNull then .error .nullCharacter
  else if pathLimit ≤ path.byteSize then .error .tooLong
  else store.walk [] path.names

/-- The path leads to a directory. -/
def isDirectory (store : Store) (path : Path) : Bool :=
  match store.access path with
  | .ok .directory => true
  | _ => false

/-- The path leads somewhere. -/
def accessible (store : Store) (path : Path) : Bool :=
  match store.access path with
  | .ok _ => true
  | .error _ => false

/-- The path leads to a file, unless that cannot be told. -/
def isFile (store : Store) (path : Path) : Except AccessError Bool :=
  if path ∈ store.unstatable then .error .denied
  else
    match store.access path with
    | .ok (.file _) => .ok true
    | .error .tooLong => .error .tooLong
    | _ => .ok false

/-- The text of the file that a path leads to. -/
def readText (store : Store) (path : Path) : Except ReadFailure String :=
  if path ∈ store.unreadable then .error ⟨path, .denied⟩
  else
    match store.access path with
    | .ok (.file bytes) => .ok (Text.ofSourceBytes bytes)
    | .ok .directory => .error ⟨path, .isDirectory⟩
    | .error error => .error ⟨path, error⟩

/-- A path lies below a directory, not at it. -/
def liesBelow (directory path : Path) : Bool :=
  match path.relativeTo? directory with
  | some rest => !rest.names.isEmpty
  | none => false

/-- Everything accessible below a directory, in the order of paths. -/
def below (store : Store) (directory : Path) : List Path :=
  let paths := store.entries.map fun entry => Path.mk directory.anchor entry.1
  let found := paths.filter fun path => liesBelow directory path && store.accessible path
  (firstsBy id found).mergeSort Path.precedes

theorem mem_below {store : Store} {directory path : Path} :
    path ∈ store.below directory ↔
      (∃ entry, (path.names, entry) ∈ store.entries) ∧ path.anchor = directory.anchor ∧
        liesBelow directory path = true ∧ store.accessible path = true := by
  obtain ⟨anchor, names⟩ := path
  simp only [below, List.mem_mergeSort, mem_firstsBy, id_eq, List.map_id_fun]
  constructor
  · rintro ⟨before, after, split, _⟩
    have member : Path.mk anchor names ∈ before ++ ⟨anchor, names⟩ :: after := by simp
    rw [← split, List.mem_filter, List.mem_map] at member
    obtain ⟨⟨⟨place, entry⟩, stored, same⟩, conditions⟩ := member
    simp only [Path.mk.injEq] at same
    obtain ⟨rfl, rfl⟩ := same
    exact ⟨⟨entry, stored⟩, rfl, by simpa using conditions⟩
  · rintro ⟨⟨entry, stored⟩, rfl, conditions⟩
    have member : Path.mk directory.anchor names ∈
        (store.entries.map fun entry => Path.mk directory.anchor entry.1).filter
          (fun path => liesBelow directory path && store.accessible path) := by
      rw [List.mem_filter, List.mem_map]
      exact ⟨⟨_, stored, rfl⟩, by simpa using conditions⟩
    obtain ⟨before, after, split, fresh⟩ := List.eq_append_cons_of_mem member
    exact ⟨before, after, split, fresh⟩

theorem below_sorted (store : Store) (directory : Path) :
    (store.below directory).Pairwise fun a b => a.precedes b = true :=
  List.pairwise_mergeSort Path.precedes_trans Path.precedes_total _

/-! ## Changes -/

/-- The store with an entry at a place, if there can be one. -/
def set (store : Store) (place : List String) (entry : Entry) : Store :=
  if hplace : IsPlace place then
    { store with
      entries := store.entries.set place entry
      filed := fun other member =>
        (Keyed.mem_set member).elim (fun same => same ▸ hplace) (store.filed other) }
  else store

@[simp] theorem unreadable_set (store : Store) (place : List String) (entry : Entry) :
    (store.set place entry).unreadable = store.unreadable := by
  rw [set]
  split <;> rfl

@[simp] theorem unstatable_set (store : Store) (place : List String) (entry : Entry) :
    (store.set place entry).unstatable = store.unstatable := by
  rw [set]
  split <;> rfl

/-- The root directory stays, and every other place holds what it held. -/
@[simp, grind =] theorem entryAt_set (store : Store) (place : List String) (entry : Entry)
    (other : List String) :
    (store.set place entry).entryAt other =
      if other = place ∧ place ≠ [] ∧ IsPlace place then some entry else store.entryAt other := by
  rw [set]
  by_cases hplace : IsPlace place
  · rw [dif_pos hplace]
    cases other with
    | nil =>
        rw [if_neg fun h => h.2.1 h.1.symm]
        rfl
    | cons name names =>
        have hfound : Keyed.get? (name :: names) (store.entries.set place entry) =
            if place = name :: names then some entry else store.entryAt (name :: names) :=
          Keyed.get?_set place (name :: names) entry store.entries
        refine hfound.trans ?_
        by_cases hhere : place = name :: names
        · subst hhere
          simp [hplace]
        · rw [if_neg hhere, if_neg fun h => hhere h.1.symm]
  · rw [dif_neg hplace, if_neg fun h => hplace h.2.2]

/-- The directories that names lead through. -/
def ancestors (place : List String) : List (List String) :=
  (List.range place.length).map fun count => place.take count

/-- The store with the directories made that are missing on the way to a place. -/
def makeAncestors (store : Store) (place : List String) : Store :=
  (ancestors place).foldl (fun store directory =>
    if (store.entryAt directory).isSome then store else store.set directory .directory) store

/-- The store with an entry at a path, and with the directories on the way to it. -/
def put (store : Store) (path : Path) (entry : Entry) : Store :=
  (store.makeAncestors path.names).set path.names entry

/-- The store with only those entries that pass a test. -/
def keepOnly (store : Store) (test : List String → Bool) : Store :=
  { store with
    entries := store.entries.filter fun entry => test entry.1
    filed := fun entry member => store.filed entry (List.mem_filter.mp member).1 }

/-- The root directory passes every test. -/
@[simp, grind =] theorem entryAt_keepOnly (store : Store) (test : List String → Bool)
    (place : List String) :
    (store.keepOnly test).entryAt place =
      if place = [] ∨ test place = true then store.entryAt place else none := by
  cases place with
  | nil => simp
  | cons name names =>
      have hfound : (store.keepOnly test).entryAt (name :: names) =
          if test (name :: names) then store.entryAt (name :: names) else none :=
        Keyed.get?_filter (name :: names) test store.entries
      simp [hfound]

/-- The store without what stands at or below a path. -/
def remove (store : Store) (path : Path) : Store :=
  store.keepOnly fun place => (Text.after? path.names place).isNone

/-- The place that a path leads to or would, its directory being there. -/
def placeFor? (store : Store) (path : Path) : Except AccessError (List String) :=
  match store.access path.parent with
  | .ok .directory => .ok (Path.collapse path.names)
  | .ok (.file _) => .error .notDirectory
  | .error error => .error error

/-- Writes a file into a directory that is there. -/
def write (store : Store) (path : Path) (bytes : List UInt8) : Except AccessError Store :=
  match store.access path with
  | .ok .directory => .error .isDirectory
  | .error .tooLong => .error .tooLong
  | .error .nullCharacter => .error .nullCharacter
  | _ =>
      match store.placeFor? path with
      | .ok place =>
          if IsPlace place then .ok (store.set place (.file bytes)) else .error .notFound
      | .error error => .error error

/-- The files of a later store that an earlier one does not have, or has with other bytes. -/
def changes (later earlier : Store) : Keyed (List String) (List UInt8) :=
  later.entries.filterMap fun (place, entry) =>
    match entry with
    | .directory => none
    | .file bytes =>
        if earlier.entryAt place = some (.file bytes) then none else some (place, bytes)

end Store

end Lineage
