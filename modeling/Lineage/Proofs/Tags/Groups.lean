import Lineage.Distinct
import Lineage.Keyed
import Lineage.Usage
import Mathlib.Data.List.Induction

/-!
# Groups of usages

Usages are put into groups one after the other, each at the end of the group of its name, and a name
that is met for the first time starts a group behind all others.  What comes out can be said without
the order of the steps: the groups are those of the distinct names, in the order in which these are
first met, and the group of a name holds the usages of that name in their order.

## Main results

* `groups_eq`: the groups of some usages.
* `get?_groups`, `mem_groups_iff`: a group that is found or listed, and which usages it holds.
-/

namespace Lineage

namespace TagUsage

/-- The usages of a name, in their order. -/
def ofName (name : String) (usages : List TagUsage) : List TagUsage :=
  usages.filter fun usage => usage.name = name

theorem ofName_eq_nil_iff {name : String} {usages : List TagUsage} :
    ofName name usages = [] ↔ name ∉ usages.map TagUsage.name := by
  simp [ofName, List.filter_eq_nil_iff]

theorem ofName_concat (name : String) (usages : List TagUsage) (usage : TagUsage) :
    ofName name (usages ++ [usage]) =
      if name = usage.name then ofName name usages ++ [usage] else ofName name usages := by
  by_cases hsame : name = usage.name
  · subst hsame
    simp [ofName]
  · simp [ofName, hsame, Ne.symm hsame]

/-- One more usage changes the group of its name, or starts a group at the end. -/
theorem addToGroups_map {names : List String} (hnodup : names.Nodup)
    (group : String → List TagUsage) (usage : TagUsage) :
    addToGroups usage (names.map fun name => (name, group name)) =
      if usage.name ∈ names then
        names.map fun name =>
          (name, if name = usage.name then group name ++ [usage] else group name)
      else (names.map fun name => (name, group name)) ++ [(usage.name, [usage])] := by
  induction names with
  | nil => rfl
  | cons first names ih =>
      obtain ⟨hfresh, hnodup⟩ := List.nodup_cons.mp hnodup
      rw [List.map_cons, addToGroups]
      by_cases hsame : first = usage.name
      · subst hsame
        have hothers : ∀ name ∈ names, (name, group name) =
            (name, if name = usage.name then group name ++ [usage] else group name) := by
          intro name hname
          rw [if_neg (ne_of_mem_of_not_mem hname hfresh)]
        rw [if_pos rfl, List.map_congr_left hothers]
        simp
      · rw [if_neg hsame, ih hnodup]
        by_cases hmem : usage.name ∈ names <;> simp [hmem, hsame, Ne.symm hsame]

/-- The groups are those of the distinct names, each with the usages of its name. -/
theorem groups_eq (usages : List TagUsage) :
    groups usages =
      (firstsBy id (usages.map TagUsage.name)).map fun name => (name, ofName name usages) := by
  induction usages using List.reverseRecOn with
  | nil => rfl
  | append_singleton usages usage ih =>
      have hstep : groups (usages ++ [usage]) = addToGroups usage (groups usages) := by
        rw [groups, groups, List.foldl_append]
        rfl
      rw [hstep, ih, addToGroups_map (firstsBy_id_nodup _), List.map_append, List.map_singleton,
        firstsBy_id_concat]
      simp only [mem_firstsBy_id, ofName_concat]
      by_cases hmem : usage.name ∈ usages.map TagUsage.name
      · rw [if_pos hmem, if_pos hmem]
      · have hothers : ∀ name ∈ firstsBy id (usages.map TagUsage.name),
            (name, ofName name usages) = (name, if name = usage.name
              then ofName name usages ++ [usage] else ofName name usages) := by
          intro name hname
          rw [if_neg (ne_of_mem_of_not_mem (mem_firstsBy_id.mp hname) hmem)]
        rw [if_neg hmem, if_neg hmem, List.map_append, List.map_congr_left hothers,
          List.map_singleton, if_pos rfl, ofName_eq_nil_iff.mpr hmem]
        rfl

/-- The group that is found under a name. -/
theorem get?_groups (name : String) (usages : List TagUsage) :
    Keyed.get? name (groups usages) =
      if name ∈ usages.map TagUsage.name then some (ofName name usages) else none := by
  rw [groups_eq, Keyed.get?_map]
  simp only [mem_firstsBy_id]

theorem mem_groups_iff {name : String} {group usages : List TagUsage} :
    (name, group) ∈ groups usages ↔
      name ∈ usages.map TagUsage.name ∧ group = ofName name usages := by
  rw [groups_eq]
  grind

end TagUsage

end Lineage
