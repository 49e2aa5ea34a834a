import Lineage.Proofs.Lexical.Mentions
import Lineage.Proofs.Scan.Answers
import Lineage.Proofs.Scan.Listing

/-!
# What a file contributes to the children of a parent

The two rules that nominate children are not independent of each other.  A file in which a child is
found by inheritance mentions the parent, so composition nominates the file as well: whatever a file
contributes, it contributes its own name too, and last.  The one exception is a file that is named
after the parent, which is not taken for a user of it.

## Main results

* `nominees_all`: the children that a file nominates by both rules, in their order.
* `contributes_nominees`: a file is a child of every parent of which it has a child, unless it is
  named after the parent.
* `children_contributions`: the children of a parent, file by file.
-/

namespace Lineage

namespace ChildRule

variable {path : Path} {text parent : String}

/-- A file is a user of what it mentions, unless it is named after that. -/
theorem nominate_composition (hmentions : mentions text parent = true)
    (hother : Unicode.sameIgnoringCase path.stem parent = false) :
    composition.nominate path text parent = [path.stem] := by
  unfold nominate
  rw [hmentions, hother]
  rfl

theorem mentions_of_composes (h : composition.nominate path text parent ≠ []) :
    mentions text parent = true := by
  by_contra hsilent
  rw [Bool.not_eq_true] at hsilent
  refine h ?_
  unfold nominate
  rw [hsilent]
  rfl

theorem mentions_of_inheritance_ne_nil (h : inheritance.nominate path text parent ≠ []) :
    mentions text parent = true := by
  obtain ⟨name, hname⟩ := List.exists_mem_of_ne_nil _ h
  exact mentions_of_inherits hname

end ChildRule

namespace Project

variable {project : Project} {memory : Memory} {path : Path} {text parent : String}

/-- The entities that a file contributes to the children of a parent: those found by inheritance,
and behind them the file itself, which is left out only if it is named after the parent. -/
structure Contributes (path : Path) (text parent : String) (entities : List Entity) : Prop where
  entities_eq : entities = (ChildRule.inheritance.nominate path text parent ++
    ChildRule.composition.nominate path text parent).map (⟨·, path⟩)
  composes : Unicode.sameIgnoringCase path.stem parent = false → entities ≠ [] →
    ChildRule.composition.nominate path text parent = [path.stem]
  named : ChildRule.inheritance.nominate path text parent ≠ [] →
    ChildRule.composition.nominate path text parent = [] →
    Unicode.sameIgnoringCase path.stem parent = true

theorem nominees_all (path : Path) (text parent : String) :
    nominees ChildRule.all parent path text =
      (ChildRule.inheritance.nominate path text parent ++
        ChildRule.composition.nominate path text parent).map (⟨·, path⟩) := by
  rw [nominees, ChildRule.all, List.flatMap_cons, List.flatMap_singleton, List.map_append]

/-- Whichever rule a file nominates a child by, it mentions the parent. -/
theorem mentions_of_nominees_ne_nil (h : nominees ChildRule.all parent path text ≠ []) :
    ChildRule.mentions text parent = true := by
  rw [nominees_all, Ne, List.map_eq_nil_iff, List.append_eq_nil_iff, not_and_or] at h
  rcases h with hinherits | hcomposes
  · exact ChildRule.mentions_of_inheritance_ne_nil hinherits
  · exact ChildRule.mentions_of_composes hcomposes

theorem contributes_nominees (path : Path) (text parent : String) :
    Contributes path text parent (nominees ChildRule.all parent path text) where
  entities_eq := nominees_all path text parent
  composes hother hne := ChildRule.nominate_composition (mentions_of_nominees_ne_nil hne) hother
  named hinherits hnone := by
    by_contra hother
    rw [Bool.not_eq_true] at hother
    have hmentions := ChildRule.mentions_of_inheritance_ne_nil hinherits
    rw [ChildRule.nominate_composition hmentions hother] at hnone
    cases hnone

/-- Inheritance implies mention.  The children of a parent therefore are, file after file in the
order of the listing, those found by inheritance and then the file itself, and a file that
contributes the former without the latter is named after the parent. -/
theorem children_contributions (project : Project) (memory : Memory) :
    (∀ path text parent, ChildRule.inheritance.nominate path text parent ≠ [] →
      ChildRule.mentions text parent = true) ∧
    ∀ parent, parent ≠ "" →
      ((project.children ChildRule.all parent).run memory).1 =
          (project.legible memory (project.files project.settings.logicExtensions none)).flatMap
            (fun (file, text) => nominees ChildRule.all parent file.path text) ∧
        (∀ file text,
          (file, text) ∈ project.legible memory
              (project.files project.settings.logicExtensions none) ↔
            file ∈ project.files project.settings.logicExtensions none ∧
              project.view memory file.path = .ok text) ∧
        ∀ path text,
          Contributes path text parent (nominees ChildRule.all parent path text) := by
  refine ⟨fun path text parent => ChildRule.mentions_of_inheritance_ne_nil, ?_⟩
  intro parent hparent
  have hgiven : parent.isEmpty = false := by simpa [String.isEmpty_iff] using hparent
  refine ⟨?_, fun file text => mem_legible_iff, fun path text => ?_⟩
  · rw [answer_children, hgiven, if_neg Bool.false_ne_true]
  · exact contributes_nominees path text parent

/-- A project with a child of `A` in the file of `A` itself, and another one in another file. -/
def childBesideParent : Project where
  store :=
    { entries := [(["p"], .directory), (["p", "a.js"], .file "class B extends A {}".toUTF8.toList),
        (["p", "c.py"], .file "class C(A):".toUTF8.toList)] }
  root := ⟨.root, ["p"]⟩
  settings := {}

theorem below_childBesideParent :
    childBesideParent.store.below childBesideParent.root =
      [⟨.root, ["p", "a.js"]⟩, ⟨.root, ["p", "c.py"]⟩] :=
  Store.below_eq_of_sorted (by decide +kernel) (by decide)

/-- The file of `A` contributes its subclass alone, the other file contributes itself as well. -/
theorem children_contributions_childBesideParent :
    ((childBesideParent.children ChildRule.all "A").run {}).1 =
        [⟨"B", ⟨.root, ["p", "a.js"]⟩⟩, ⟨"C", ⟨.root, ["p", "c.py"]⟩⟩,
          ⟨"c", ⟨.root, ["p", "c.py"]⟩⟩] ∧
      ChildRule.mentions "class B extends A {}" "A" = true ∧
      Unicode.sameIgnoringCase "a" "A" = true ∧
      ChildRule.composition.nominate ⟨.root, ["p", "c.py"]⟩ "class C(A):" "A" = ["c"] := by
  obtain ⟨hmentions, hchildren⟩ := children_contributions childBesideParent {}
  obtain ⟨hfound, -, hfiles⟩ := hchildren "A" (by decide)
  have hfirst := hfiles ⟨.root, ["p", "a.js"]⟩ "class B extends A {}"
  have hsecond := hfiles ⟨.root, ["p", "c.py"]⟩ "class C(A):"
  refine ⟨?_, ?_, ?_, ?_⟩
  · rw [hfound, files_eq_of_below below_childBesideParent]
    decide +kernel
  · exact hmentions ⟨.root, ["p", "a.js"]⟩ _ _ (by decide +kernel)
  · exact hfirst.named (by decide +kernel) (by decide +kernel)
  · exact hsecond.composes (by decide +kernel) (by decide +kernel)

end Project

end Lineage
