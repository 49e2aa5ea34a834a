import Lineage.Proofs.Store.Agreement

/-!
# Entries that are made

An entry is made together with the directories that are missing on the way to it.  What stands at a
place afterwards depends on what stood there and on nothing else, so a store can be looked at as a
function of places, and making entries as a change of that function.  The function forgets in which
order the entries were made; so does every access by a path.

Directories are made only where there is nothing, and an entry replaces what is at its place.  So
nothing but making different entries at one place depends on the order.

## Main results

* `entryAt_put`: what stands at a place after an entry was made.
* `sameTree_putAll_of_perm`: the order in which entries are made does not show.
* `walk_eq_ok_iff`: what has to stand where for a path to lead to an entry.
* `agreeBut_put`: making a file leaves all other files alone.
-/

namespace Lineage.Store

variable {store other : Store}

/-! ## Places on the way -/

@[simp, grind =] theorem mem_ancestors_iff {place names : List String} :
    place ∈ ancestors names ↔ place <+: names ∧ place ≠ names := by
  rw [ancestors, List.mem_map]
  constructor
  · rintro ⟨count, hcount, rfl⟩
    have hless : count < names.length := List.mem_range.mp hcount
    refine ⟨List.take_prefix count names, fun hwhole => ?_⟩
    have hlength := congrArg List.length hwhole
    rw [List.length_take] at hlength
    omega
  · rintro ⟨⟨rest, rfl⟩, hproper⟩
    have hrest : rest ≠ [] := by
      rintro rfl
      exact hproper (List.append_nil place).symm
    have hpos : 0 < rest.length := List.length_pos_iff.mpr hrest
    refine ⟨place.length, ?_, List.take_left⟩
    rw [List.mem_range, List.length_append]
    omega

theorem mem_ancestors_iff_of_ne_nil {place names : List String} (hnames : names ≠ []) :
    place ∈ ancestors names ↔ place <+: names.dropLast := by
  obtain ⟨front, last, rfl⟩ := (List.eq_nil_or_concat names).resolve_left hnames
  rw [List.concat_eq_append, mem_ancestors_iff, List.prefix_concat_iff, List.dropLast_concat]
  refine ⟨fun h => h.1.resolve_left h.2, fun hlead => ⟨.inr hlead, fun hsame => ?_⟩⟩
  have hlength := hlead.length_le
  rw [hsame, List.length_append, List.length_singleton] at hlength
  omega

theorem ancestors_cons (name : String) (names : List String) :
    ancestors (name :: names) = [] :: (ancestors names).map (name :: ·) := by
  rw [ancestors, List.length_cons, List.range_succ_eq_map, List.map_cons, List.map_map, ancestors,
    List.map_map]
  rfl

/-! ## What stands at a place after an entry was made -/

/-- Directories are made only where there is nothing. -/
theorem entryAt_makeAncestors (store : Store) {place : List String} (hplace : IsPlace place)
    (names : List String) :
    (store.makeAncestors names).entryAt place =
      if place ∈ ancestors names then some ((store.entryAt place).getD .directory)
      else store.entryAt place := by
  rw [makeAncestors]
  -- The directories are made one after the other; the invariant holds of any list of them.
  induction ancestors names generalizing store with
  | nil => rw [if_neg List.not_mem_nil, List.foldl_nil]
  | cons directory directories ih =>
      have hfirst : (if (store.entryAt directory).isSome then store
          else store.set directory .directory).entryAt place =
            if place = directory then some ((store.entryAt place).getD .directory)
            else store.entryAt place := by
        by_cases hhere : place = directory
        · subst hhere
          cases hentry : store.entryAt place with
          | some entry => simp [hentry]
          | none =>
              have hroot : place ≠ [] := by
                rintro rfl
                cases hentry
              simp [hroot, hplace]
        · split <;> simp [hhere]
      rw [List.foldl_cons, ih, hfirst]
      by_cases hhere : place = directory <;> simp [hhere]

theorem entryAt_makeAncestors_of_not_isPlace {place : List String} (hplace : ¬ IsPlace place)
    (names : List String) : (store.makeAncestors names).entryAt place = store.entryAt place := by
  rw [makeAncestors]
  induction ancestors names generalizing store with
  | nil => rfl
  | cons directory directories ih =>
      have hother : ¬ (place = directory ∧ directory ≠ [] ∧ IsPlace directory) :=
        fun h => hplace (h.1 ▸ h.2.2)
      rw [List.foldl_cons, ih]
      split
      · rfl
      · rw [entryAt_set, if_neg hother]

/-- What stands at places when an entry is made at a path. -/
def made (held : List String → Option Entry) (creation : Path × Entry) :
    List String → Option Entry := fun place =>
  if place = [] then some .directory
  else if ¬ IsPlace place then held place
  else if place = creation.1.names then some creation.2
  else if place <+: creation.1.names then some ((held place).getD .directory)
  else held place

theorem entryAt_put (store : Store) (path : Path) (entry : Entry) :
    (store.put path entry).entryAt = made store.entryAt (path, entry) := by
  funext place
  rw [made, put, entryAt_set]
  by_cases hroot : place = []
  · subst hroot
    have hother : ¬ ([] = path.names ∧ path.names ≠ [] ∧ IsPlace path.names) :=
      fun h => h.2.1 h.1.symm
    rw [if_neg hother, if_pos rfl, entryAt_nil]
  · rw [if_neg hroot]
    by_cases hplace : IsPlace place
    · rw [if_neg (not_not_intro hplace), entryAt_makeAncestors _ hplace]
      by_cases hhere : place = path.names
      · subst hhere
        rw [if_pos ⟨rfl, hroot, hplace⟩, if_pos rfl]
      · have hother : ¬ (place = path.names ∧ path.names ≠ [] ∧ IsPlace path.names) :=
          fun h => hhere h.1
        rw [if_neg hother, if_neg hhere]
        simp only [mem_ancestors_iff, and_iff_left hhere]
    · have hother : ¬ (place = path.names ∧ path.names ≠ [] ∧ IsPlace path.names) :=
        fun h => hplace (h.1 ▸ h.2.2)
      rw [if_neg hother, if_pos hplace, entryAt_makeAncestors_of_not_isPlace hplace]

/-- What no single entry touches is left alone when an entry is made. -/
theorem part_put {γ : Type} {part : Store → γ}
    (hset : ∀ store place entry, part (store.set place entry) = part store) (store : Store)
    (path : Path) (entry : Entry) : part (store.put path entry) = part store := by
  rw [put, hset, makeAncestors]
  induction ancestors path.names generalizing store with
  | nil => rfl
  | cons directory directories ih =>
      rw [List.foldl_cons, ih]
      split
      · rfl
      · exact hset _ _ _

@[simp] theorem unreadable_put (store : Store) (path : Path) (entry : Entry) :
    (store.put path entry).unreadable = store.unreadable := part_put unreadable_set store path entry

@[simp] theorem unstatable_put (store : Store) (path : Path) (entry : Entry) :
    (store.put path entry).unstatable = store.unstatable := part_put unstatable_set store path entry

/-! ## The same entries at the same places -/

/-- The two stores hold the same at every place. -/
def SameTree (store other : Store) : Prop := ∀ place, other.entryAt place = store.entryAt place

namespace SameTree

variable (hsame : store.SameTree other)
include hsame

theorem walk_eq (place names : List String) : other.walk place names = store.walk place names := by
  induction names generalizing place with
  | nil => rw [walk, walk, hsame]
  | cons name names ih =>
      rw [walk, walk, hsame]
      simp only [ih]

theorem access_eq (path : Path) : other.access path = store.access path :=
  access_congr (hsame.walk_eq [] path.names)

end SameTree

/-! ## Entries made one after the other -/

/-- The store with entries made at paths, one after the other. -/
def putAll (store : Store) (creations : List (Path × Entry)) : Store :=
  creations.foldl (fun store creation => store.put creation.1 creation.2) store

theorem entryAt_putAll (store : Store) (creations : List (Path × Entry)) :
    (store.putAll creations).entryAt = creations.foldl made store.entryAt := by
  induction creations generalizing store with
  | nil => rfl
  | cons creation creations ih =>
      rw [List.foldl_cons, ← entryAt_put, ← ih]
      rfl

theorem unreadable_putAll (store : Store) (creations : List (Path × Entry)) :
    (store.putAll creations).unreadable = store.unreadable := by
  induction creations generalizing store with
  | nil => rfl
  | cons creation creations ih =>
      rw [← unreadable_put store creation.1 creation.2]
      exact ih _

theorem unstatable_putAll (store : Store) (creations : List (Path × Entry)) :
    (store.putAll creations).unstatable = store.unstatable := by
  induction creations generalizing store with
  | nil => rfl
  | cons creation creations ih =>
      rw [← unstatable_put store creation.1 creation.2]
      exact ih _

/-- Of two entries that are not made at one place, either can be made first. -/
theorem made_comm {first second : Path × Entry}
    (hmeet : first.1.names = second.1.names → first.2 = second.2)
    (held : List String → Option Entry) :
    made (made held first) second = made (made held second) first := by
  funext place
  simp only [made]
  by_cases hroot : place = []
  · rw [if_pos hroot, if_pos hroot]
  by_cases hplace : IsPlace place
  · simp only [if_neg hroot, if_neg (not_not_intro hplace)]
    by_cases hfirst : place = first.1.names
    · simp only [if_pos hfirst]
      by_cases hsecond : place = second.1.names
      · rw [if_pos hsecond, hmeet (hfirst.symm.trans hsecond)]
      · rw [if_neg hsecond, Option.getD_some, ite_self]
    · simp only [if_neg hfirst]
      by_cases hsecond : place = second.1.names
      · simp only [if_pos hsecond, Option.getD_some, ite_self]
      · simp only [if_neg hsecond]
        by_cases hway : place <+: first.1.names
        · by_cases hwayAlso : place <+: second.1.names
          · simp only [if_pos hway, if_pos hwayAlso, Option.getD_some]
          · simp only [if_pos hway, if_neg hwayAlso]
        · simp only [if_neg hway]
  · simp only [if_neg hroot, if_pos hplace]

/-- The order in which entries are made does not show, unless some are made at one place. -/
theorem sameTree_putAll_of_perm {creations others : List (Path × Entry)}
    (hperm : creations.Perm others)
    (hmeet : ∀ creation ∈ creations, ∀ further ∈ creations,
      creation.1.names = further.1.names → creation.2 = further.2) (store : Store) :
    (store.putAll creations).SameTree (store.putAll others) := by
  intro place
  rw [entryAt_putAll, entryAt_putAll]
  have heither := hperm.foldl_eq'
    (fun first hfirst second hsecond => made_comm (hmeet first hfirst second hsecond))
    store.entryAt
  rw [heither]

/-! ## One entry more -/

/-- Names that do not lead back lead to the place that they spell, if there are only directories on
the way and none of the names is too long. -/
theorem walk_eq_ok_iff {names : List String} (hplain : IsPlace names)
    {place : List String} {entry : Entry} :
    store.walk place names = .ok entry ↔
      (∀ name ∈ names, name.utf8ByteSize ≤ nameLimit) ∧
        (∀ lead ∈ ancestors names, store.entryAt (place ++ lead) = some .directory) ∧
        store.entryAt (place ++ names) = some entry := by
  induction names generalizing place with
  | nil => simp [walk_nil_eq_ok_iff, ancestors]
  | cons name names ih =>
      have hforward : name ≠ ".." := (hplain name List.mem_cons_self).ne_back
      have hothers := fun other hother => hplain other (List.mem_cons_of_mem _ hother)
      have hfirst : store.walk place (name :: names) = .ok entry ↔
          store.entryAt place = some .directory ∧ name.utf8ByteSize ≤ nameLimit ∧
            store.walk (place ++ [name]) names = .ok entry := by
        rw [walk, if_neg hforward]
        split
        · next hplace =>
            by_cases hlong : nameLimit < name.utf8ByteSize
            · simp [hlong, Nat.not_le_of_lt hlong]
            · simp [hlong, Nat.le_of_not_lt hlong, hplace]
        · next hplace => simp [hplace]
        · next hplace => simp [hplace]
      simp only [hfirst, ih hothers, ancestors_cons, List.forall_mem_cons, List.forall_mem_map,
        List.append_nil, List.append_assoc, List.singleton_append]
      constructor
      · rintro ⟨hplace, hshort, hnames, hway, hentry⟩
        exact ⟨⟨hshort, hnames⟩, ⟨hplace, hway⟩, hentry⟩
      · rintro ⟨⟨hshort, hnames⟩, ⟨hplace, hway⟩, hentry⟩
        exact ⟨hplace, hshort, hnames, hway, hentry⟩

/-- The two stores have the same files and the same faults, but for what is under the path. -/
def AgreeBut (store other : Store) (path : Path) : Prop :=
  ∀ place : Path, place.names ≠ path.names → store.AgreeAt other place

/-- Whatever is on the way to a place is a directory. -/
def HasWayTo (store : Store) (names : List String) : Prop :=
  ∀ place ∈ ancestors names, store.entryAt place = some .directory

instance (store : Store) (names : List String) : Decidable (store.HasWayTo names) :=
  inferInstanceAs (Decidable (∀ _ ∈ _, _))

theorem hasWayTo_of_access {path : Path} (hplain : path.IsPlain) {entry : Entry}
    (h : store.access path = .ok entry) : store.HasWayTo path.names := by
  obtain ⟨-, -, hwalk⟩ := access_eq_ok_iff.mp h
  obtain ⟨-, hway, -⟩ := (walk_eq_ok_iff hplain).mp hwalk
  exact hway

/-- Places in one directory have one way to them. -/
theorem HasWayTo.of_dropLast_eq {names others : List String} (h : store.HasWayTo names)
    (hnames : names ≠ []) (hothers : others ≠ []) (hsame : others.dropLast = names.dropLast) :
    store.HasWayTo others := by
  intro place hplace
  refine h place ((mem_ancestors_iff_of_ne_nil hnames).mpr ?_)
  rw [← hsame]
  exact (mem_ancestors_iff_of_ne_nil hothers).mp hplace

/-- With a way to its path, an entry is the only thing that is made. -/
theorem entryAt_put_of_hasWayTo {path : Path} (hway : store.HasWayTo path.names) (entry : Entry)
    (place : List String) :
    (store.put path entry).entryAt place =
      if place = path.names ∧ path.names ≠ [] ∧ IsPlace path.names then some entry
      else store.entryAt place := by
  have hsame : (store.makeAncestors path.names).entryAt place = store.entryAt place := by
    by_cases hplace : IsPlace place
    · rw [entryAt_makeAncestors _ hplace]
      split
      · next hlead => rw [hway place hlead, Option.getD_some]
      · rfl
    · exact entryAt_makeAncestors_of_not_isPlace hplace _
  rw [put, entryAt_set, hsame]

/-- Making a file, or replacing one, leaves all other files alone. -/
theorem agreeBut_put {path : Path} (hway : store.HasWayTo path.names)
    (hfree : store.entryAt path.names ≠ some .directory) (bytes : List UInt8) :
    store.AgreeBut (store.put path (.file bytes)) path := by
  intro file hother
  have hdirectory (place : List String) :
      (store.put path (.file bytes)).entryAt place = some .directory ↔
        store.entryAt place = some .directory := by
    rw [entryAt_put_of_hasWayTo hway]
    split
    · next hhere =>
        rw [hhere.1]
        exact iff_of_false (by simp) hfree
    · rfl
  have hfile : (store.put path (.file bytes)).entryAt file.names = store.entryAt file.names := by
    rw [entryAt_put_of_hasWayTo hway, if_neg fun hhere => hother hhere.1]
  refine ⟨fun hplain held => ?_, by rw [unreadable_put], by rw [unstatable_put]⟩
  rw [access_eq_ok_iff, access_eq_ok_iff, walk_eq_ok_iff hplain, walk_eq_ok_iff hplain]
  simp only [List.nil_append, hdirectory, hfile]

end Lineage.Store
