import Lineage.Hierarchy
import Lineage.Proofs.Lexical.Declared
import Lineage.Proofs.Scan.Answers
import Mathlib.Data.Set.Card

/-!
# Names that code can nominate

Whatever the parent, a file nominates its own name or a name that it declares.  The names that the
code of a project can nominate are therefore a finite set that does not depend on who is asked
for, and it is this set that bounds the depth of every hierarchy.

## Main results

* `nominable_of_mem_children`: everything nominated for any parent is in the set.
* `ncard_nominable`: `nominableNames` lists the set without repetitions.
* `length_le_ncard_nominable`: distinct names from the set are no more than it has.
* `isSome_locate_of_declaredIn`: a name that readable code declares is located.
-/

namespace Lineage

/-- A file nominates only its own name and names that its text declares. -/
theorem ChildRule.mem_nominate {rule : ChildRule} {path : Path} {text parent name : String}
    (h : name ∈ rule.nominate path text parent) :
    name = path.stem ∨ Lexical.Declaration.DeclaredIn text name := by
  cases rule with
  | inheritance =>
      rcases List.mem_append.mp h with h | h
      · exact .inr (Lexical.Extension.declaredIn_of_mem_children h)
      · split at h
        · exact .inr (Lexical.BaseList.declaredIn_of_mem_children h)
        · cases h
  | composition =>
      rw [nominate] at h
      split at h
      · exact .inl (List.mem_singleton.mp h)
      · cases h

namespace Project

variable {project : Project} {memory : Memory}

/-- The names that code in sight can nominate: those of its files, and those that stand in its
texts as whole words after the keyword of a declaration. -/
def Nominable (project : Project) (memory : Memory) : Set String :=
  {name | ∃ file text, file ∈ project.files project.settings.logicExtensions none ∧
    project.view memory file.path = .ok text ∧
    (name = file.path.stem ∨ Lexical.Declaration.DeclaredIn text name)}

theorem nominable_of_mem_children {rules : List ChildRule} {parent : String} {entity : Entity}
    (h : entity ∈ ((project.children rules parent).run memory).1) :
    entity.name ∈ project.Nominable memory := by
  obtain ⟨-, file, text, hfile, htext, hentity⟩ := mem_children_iff.mp h
  obtain ⟨rule, -, hentity⟩ := List.mem_flatMap.mp hentity
  obtain ⟨name, hname, rfl⟩ := List.mem_map.mp hentity
  exact ⟨file, text, hfile, htext, ChildRule.mem_nominate hname⟩

theorem mem_nominableNames_iff {name : String} :
    name ∈ project.nominableNames memory ↔ name ∈ project.Nominable memory := by
  rw [nominableNames, mem_firstsBy_id, List.mem_flatMap]
  constructor
  · rintro ⟨file, hfile, hname⟩
    split at hname
    · next text htext =>
        rw [nominable, List.mem_cons, Lexical.Declaration.mem_candidates_iff] at hname
        exact ⟨file, text, hfile, htext, hname⟩
    · cases hname
  · rintro ⟨file, text, hfile, htext, hname⟩
    refine ⟨file, hfile, ?_⟩
    rw [view] at htext
    rw [htext]
    exact List.mem_cons.mpr (hname.imp_right Lexical.Declaration.mem_candidates_iff.mpr)

/-- The list is a matter of the texts in sight. -/
theorem nominableNames_congr {other : Memory} (hview : project.view memory = project.view other) :
    project.nominableNames memory = project.nominableNames other := by
  have hpeek : memory.peek project.store = other.peek project.store := hview
  rw [nominableNames, nominableNames, hpeek]

theorem nominable_eq_coe :
    project.Nominable memory = ((project.nominableNames memory).toFinset : Set String) := by
  ext name
  rw [List.coe_toFinset, Set.mem_ofPred_eq, mem_nominableNames_iff]

theorem ncard_nominable :
    (project.Nominable memory).ncard = (project.nominableNames memory).length := by
  rw [nominable_eq_coe, Set.ncard_coe_finset]
  exact List.toFinset_card_of_nodup (firstsBy_id_nodup _)

theorem length_le_ncard_nominable {names : List String} (hnodup : names.Nodup)
    (hnames : ∀ name ∈ names, name ∈ project.Nominable memory) :
    names.length ≤ (project.Nominable memory).ncard := by
  have hsubset : (names.toFinset : Set String) ⊆ project.Nominable memory := by
    intro name hname
    exact hnames name (by simpa using hname)
  have hfinite : (project.Nominable memory).Finite := by
    rw [nominable_eq_coe]
    exact Finset.finite_toSet _
  have hcard := Set.ncard_le_ncard hsubset hfinite
  rwa [Set.ncard_coe_finset, List.toFinset_card_of_nodup hnodup] at hcard

/-- No name that readable code declares is unknown. -/
theorem isSome_locate_of_declaredIn {file : SourceFile} {name text : String}
    (hfile : file ∈ project.files project.settings.logicExtensions none)
    (hkind : file.kind = .logic) (htext : project.view memory file.path = .ok text)
    (hname : Lexical.Declaration.DeclaredIn text name) :
    ((project.locate name).run memory).1.isSome = true :=
  isSome_locate_of_declares hfile hkind htext hname.ne_empty
    (Lexical.Declaration.declares_of_declaredIn hname)

end Project

end Lineage
