/-!
# Entries under keys, in the order of their making

Configuration tables and the files of a store are lists of entries. An entry made under a key that
is already there takes the place of the old one; any other goes to the end.

## Main results

* `get?_set`: what is found after an entry was made.
* `get?_erase`: what is found after a key was removed.
* `get?_update`: what is found after changes were made, the last change of a key counting.
-/

namespace Lineage

/-- Entries under keys, in the order in which the keys were first used. -/
abbrev Keyed (α β : Type) := List (α × β)

namespace Keyed

variable {α β : Type} [DecidableEq α]

/-- The value under a key. -/
def get? (key : α) : Keyed α β → Option β
  | [] => none
  | (k, value) :: entries => if k = key then some value else get? key entries

/-- The entries with a value under a key, which keeps its place if it is already there. -/
def set (key : α) (value : β) : Keyed α β → Keyed α β
  | [] => [(key, value)]
  | (k, old) :: entries =>
      if k = key then (k, value) :: entries else (k, old) :: set key value entries

/-- The entries without those under a key. -/
def erase (key : α) : Keyed α β → Keyed α β
  | [] => []
  | (k, value) :: entries => if k = key then erase key entries else (k, value) :: erase key entries

/-- The entries with those of a second list made in it, one after the other. -/
def update (entries changes : Keyed α β) : Keyed α β :=
  changes.foldl (fun entries change => set change.1 change.2 entries) entries

@[simp, grind =] theorem get?_set (key other : α) (value : β) (entries : Keyed α β) :
    get? other (set key value entries) =
      if key = other then some value else get? other entries := by
  induction entries with
  | nil => simp [set, get?]
  | cons entry entries ih =>
      obtain ⟨k, old⟩ := entry
      by_cases same : k = key
      · subst same
        by_cases h : k = other <;> simp [set, get?, h]
      · by_cases h : k = other
        · subst h
          simp [set, get?, same, Ne.symm same]
        · simp [set, get?, same, h, ih]

@[simp, grind =] theorem get?_erase (key other : α) (entries : Keyed α β) :
    get? other (erase key entries) = if key = other then none else get? other entries := by
  induction entries with
  | nil => simp [erase, get?]
  | cons entry entries ih =>
      obtain ⟨k, old⟩ := entry
      by_cases same : k = key
      · subst same
        by_cases h : k = other
        · simp_all [erase]
        · simp_all [erase, get?]
      · by_cases h : k = other
        · subst h
          simp [erase, get?, same, Ne.symm same]
        · simp [erase, get?, same, h, ih]

theorem get?_update (key : α) (entries changes : Keyed α β) :
    get? key (update entries changes) =
      (get? key (update [] changes)).or (get? key entries) := by
  induction changes generalizing entries with
  | nil => rfl
  | cons change changes ih =>
      have first : update [] (change :: changes) = update [change] changes := rfl
      have here : get? key [change] = if change.1 = key then some change.2 else none := rfl
      rw [first, ih [change], here]
      calc get? key (update (set change.1 change.2 entries) changes)
        _ = (get? key (update [] changes)).or (get? key (set change.1 change.2 entries)) := ih _
        _ = _ := by
          rw [get?_set, Option.or_assoc]
          by_cases same : change.1 = key <;> simp [same]

/-- Changes find nothing under a key exactly if none of them is of the key. -/
theorem get?_update_nil_eq_none_iff {key : α} {changes : Keyed α β} :
    get? key (update [] changes) = none ↔ key ∉ changes.map Prod.fst := by
  induction changes with
  | nil => exact iff_of_true rfl List.not_mem_nil
  | cons change changes ih =>
      have first : update [] (change :: changes) = update [change] changes := rfl
      have here : get? key [change] = if change.1 = key then some change.2 else none := rfl
      rw [first, get?_update, Option.or_eq_none_iff, ih, here, List.map_cons, List.mem_cons, not_or,
        and_comm]
      by_cases same : change.1 = key
      · simp [same]
      · simp [same, Ne.symm same]

/-- Entries that are alike under a key stay alike there under the same changes. -/
theorem get?_update_congr {γ : Type} (read : β → γ) {key : α} {entries others : Keyed α β}
    (alike : (get? key entries).map read = (get? key others).map read) (changes : Keyed α β) :
    (get? key (update entries changes)).map read = (get? key (update others changes)).map read := by
  rw [get?_update key entries, get?_update key others]
  cases get? key (update [] changes) with
  | none => exact alike
  | some value => rfl

theorem get?_filter (key : α) (keep : α → Bool) (entries : Keyed α β) :
    get? key (entries.filter fun entry => keep entry.1) =
      if keep key then get? key entries else none := by
  induction entries with
  | nil => simp [get?]
  | cons entry entries ih =>
      obtain ⟨k, value⟩ := entry
      rw [List.filter_cons, get?]
      by_cases same : k = key
      · by_cases kept : keep key = true <;> simp [same, kept, get?, ih]
      · by_cases kept : keep k = true <;> simp [same, kept, get?, ih]

/-- What is found among entries that are made for some keys. -/
@[simp] theorem get?_map (keys : List α) (value : α → β) (key : α) :
    get? key (keys.map fun k => (k, value k)) = if key ∈ keys then some (value key) else none := by
  induction keys with
  | nil => rfl
  | cons k keys ih =>
      rw [List.map_cons, get?, ih]
      by_cases same : k = key
      · simp [same]
      · by_cases member : key ∈ keys <;> simp [same, member, Ne.symm same]

@[grind →] theorem mem_of_get? {key : α} {value : β} {entries : Keyed α β}
    (found : get? key entries = some value) : (key, value) ∈ entries := by
  induction entries with
  | nil => cases found
  | cons entry entries ih =>
      rw [get?] at found
      split at found
      · next same =>
          cases found
          rw [← same]
          exact List.mem_cons_self
      · exact List.mem_cons_of_mem _ (ih found)

/-- Where each key is there once, every entry is found under its key. -/
theorem get?_of_mem {key : α} {value : β} {entries : Keyed α β}
    (nodup : (entries.map Prod.fst).Nodup) (member : (key, value) ∈ entries) :
    get? key entries = some value := by
  induction entries with
  | nil => cases member
  | cons entry entries ih =>
      obtain ⟨k, old⟩ := entry
      obtain ⟨fresh, nodup⟩ := List.nodup_cons.mp nodup
      rw [get?]
      rcases List.mem_cons.mp member with same | member
      · cases same
        rw [if_pos rfl]
      · have known : key ∈ entries.map Prod.fst := List.mem_map_of_mem member
        rw [if_neg (ne_of_mem_of_not_mem known fresh).symm, ih nodup member]

/-- A key that is not there yet goes to the end. -/
theorem set_of_fresh {key : α} {entries : Keyed α β} (fresh : key ∉ entries.map Prod.fst)
    (value : β) : set key value entries = entries ++ [(key, value)] := by
  induction entries with
  | nil => rfl
  | cons entry entries ih =>
      rw [List.map_cons, List.mem_cons, not_or] at fresh
      rw [set, if_neg (Ne.symm fresh.1), ih fresh.2, List.cons_append]

/-- A key that is there keeps its place. -/
theorem map_fst_set_of_mem {key : α} {entries : Keyed α β} (known : key ∈ entries.map Prod.fst)
    (value : β) : (set key value entries).map Prod.fst = entries.map Prod.fst := by
  induction entries with
  | nil => cases known
  | cons entry entries ih =>
      obtain ⟨k, old⟩ := entry
      rw [set]
      split
      · rfl
      · next differ =>
          have others : key ∈ entries.map Prod.fst := by
            simpa [Ne.symm differ] using known
          rw [List.map_cons, List.map_cons, ih others]

theorem nodup_set {entries : Keyed α β} (nodup : (entries.map Prod.fst).Nodup) (key : α)
    (value : β) : ((set key value entries).map Prod.fst).Nodup := by
  by_cases known : key ∈ entries.map Prod.fst
  · rw [map_fst_set_of_mem known]
    exact nodup
  · rw [set_of_fresh known, List.map_append]
    refine List.nodup_append.mpr ⟨nodup, by simp, ?_⟩
    intro other member k last
    rw [List.mem_singleton.mp last]
    exact ne_of_mem_of_not_mem member known

/-- Changes under keys that are all new and different go to the end. -/
theorem update_eq_append {entries changes : Keyed α β}
    (nodup : ((entries ++ changes).map Prod.fst).Nodup) :
    update entries changes = entries ++ changes := by
  induction changes generalizing entries with
  | nil => simp [update]
  | cons change changes ih =>
      have split : entries ++ change :: changes = (entries ++ [change]) ++ changes := by simp
      have fresh : change.1 ∉ entries.map Prod.fst := by
        intro member
        rw [List.map_append, List.nodup_append] at nodup
        exact nodup.2.2 change.1 member change.1 List.mem_cons_self rfl
      have first : update entries (change :: changes) =
          update (set change.1 change.2 entries) changes := rfl
      rw [split] at nodup ⊢
      rw [first, set_of_fresh fresh, ih nodup]

/-- Entries that are made one after the other stay as they are, if there is one for each key. -/
theorem update_nil {entries : Keyed α β} (nodup : (entries.map Prod.fst).Nodup) :
    update [] entries = entries := update_eq_append nodup

/-- Changes under other keys are made behind an entry. -/
theorem update_cons_of_fresh {key : α} {changes : Keyed α β}
    (fresh : key ∉ changes.map Prod.fst) (value : β) (entries : Keyed α β) :
    update ((key, value) :: entries) changes = (key, value) :: update entries changes := by
  induction changes generalizing entries with
  | nil => rfl
  | cons change changes ih =>
      rw [List.map_cons, List.mem_cons, not_or] at fresh
      have first : set change.1 change.2 ((key, value) :: entries) =
          (key, value) :: set change.1 change.2 entries := by
        rw [set, if_neg fresh.1]
      show update (set change.1 change.2 ((key, value) :: entries)) changes = _
      rw [first, ih fresh.2]
      rfl

theorem mem_set {key : α} {value : β} {entries : Keyed α β} {entry : α × β}
    (member : entry ∈ set key value entries) : entry = (key, value) ∨ entry ∈ entries := by
  induction entries with
  | nil => exact .inl (List.mem_singleton.mp member)
  | cons other entries ih =>
      rw [set] at member
      split at member
      · next same =>
          rcases List.mem_cons.mp member with rfl | member
          · exact .inl (by rw [same])
          · exact .inr (List.mem_cons_of_mem _ member)
      · rcases List.mem_cons.mp member with rfl | member
        · exact .inr List.mem_cons_self
        · exact (ih member).imp id (List.mem_cons_of_mem _)

end Keyed

end Lineage
