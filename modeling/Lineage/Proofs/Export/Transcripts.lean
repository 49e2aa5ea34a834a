import Lineage.Proofs.Export.JsonReading
import Mathlib.Data.List.Forall2

/-!
# Trees that are exported alike

An export names every node, spells its path and lists what it uses, with its children inside of it.
Of two trees it can be told from their exports whether they agree in all of this, and nothing else
can be told: a path is exported as its text, so two paths with one text are the same to an export.

## Main results

* `TagUsage.toJson_eq_iff`, `Tree.toJson_eq_iff`: which usages and which trees have one value.
* `Tree.render_eq_iff`: trees are exported alike exactly if they agree at every node.
-/

namespace Lineage

/-! ## Usages -/

/-- Two usages agree in their tags, lines and texts, in whether their files are known and in the
texts of the paths of these. -/
structure TagUsage.Alike (usage other : TagUsage) : Prop where
  tag_eq : usage.tag = other.tag
  line_eq : usage.line = other.line
  context_eq : usage.context = other.context
  file_eq : usage.file.map Path.toString = other.file.map Path.toString

theorem TagUsage.toJson_eq (usage : TagUsage) :
    usage.toJson = .object
      ([("tag", .text usage.tag), ("line", .int usage.line), ("context", .text usage.context)] ++
        ((usage.file.map Path.toString).map fun file => ("file_path", Json.text file)).toList) := by
  rw [Option.map_map]
  rfl

theorem TagUsage.toJson_eq_iff {usage other : TagUsage} :
    usage.toJson = other.toJson ↔ usage.Alike other := by
  rw [toJson_eq, toJson_eq]
  constructor
  · intro h
    simp only [Json.object.injEq, List.cons_append, List.nil_append, List.cons.injEq,
      Prod.mk.injEq, Json.text.injEq, Json.int.injEq, true_and] at h
    obtain ⟨htag, hline, hcontext, hfile⟩ := h
    refine ⟨htag, hline, hcontext, ?_⟩
    -- The field of the file is there or not, and its text is that of the path.
    cases hpath : usage.file.map Path.toString with
    | none =>
        cases hother : other.file.map Path.toString with
        | none => rfl
        | some text => simp [hpath, hother] at hfile
    | some text =>
        cases hother : other.file.map Path.toString with
        | none => simp [hpath, hother] at hfile
        | some otherText => simpa [hpath, hother] using hfile
  · rintro ⟨htag, hline, hcontext, hfile⟩
    rw [htag, hline, hcontext, hfile]

theorem TagUsage.map_toJson_eq_iff {usages others : List TagUsage} :
    usages.map toJson = others.map toJson ↔ List.Forall₂ Alike usages others := by
  rw [← List.forall₂_eq_eq_eq, List.forall₂_map_left_iff, List.forall₂_map_right_iff]
  simp only [toJson_eq_iff]

namespace Tree

/-! ## Trees -/

/-- Two trees are of one shape and agree at every node in its name, the text of its path and its
usages. -/
inductive Alike : Tree → Tree → Prop
  | node {name : String} {path other : Path} {tags otherTags : List TagUsage}
      {children others : List Tree} (hpath : path.toString = other.toString)
      (htags : List.Forall₂ TagUsage.Alike tags otherTags)
      (hchildren : List.Forall₂ Alike children others) :
      Alike ⟨name, path, tags, children⟩ ⟨name, other, otherTags, others⟩

mutual

theorem toJson_eq_iff (tree other : Tree) : tree.toJson = other.toJson ↔ tree.Alike other := by
  match tree, other with
  | ⟨name, path, tags, children⟩, ⟨otherName, otherPath, otherTags, others⟩ =>
      have htags := @TagUsage.map_toJson_eq_iff tags otherTags
      have hchildren := toJsonAll_eq_iff children others
      rw [toJson, toJson]
      constructor
      · intro h
        simp only [Json.object.injEq, List.cons.injEq, Prod.mk.injEq, Json.text.injEq,
          Json.array.injEq, true_and, and_true] at h
        obtain ⟨rfl, hpath, htagsEq, hchildrenEq⟩ := h
        exact .node hpath (htags.mp htagsEq) (hchildren.mp hchildrenEq)
      · rintro (⟨hpath, htagsAlike, hchildrenAlike⟩)
        rw [hpath, htags.mpr htagsAlike, hchildren.mpr hchildrenAlike]

theorem toJsonAll_eq_iff (trees others : List Tree) :
    toJsonAll trees = toJsonAll others ↔ List.Forall₂ Alike trees others := by
  match trees, others with
  | [], [] => exact iff_of_true rfl .nil
  | [], other :: others => exact iff_of_false (List.cons_ne_nil _ _).symm nofun
  | tree :: trees, [] => exact iff_of_false (List.cons_ne_nil _ _) nofun
  | tree :: trees, other :: others =>
      rw [toJsonAll, toJsonAll, List.cons.injEq, List.forall₂_cons, toJson_eq_iff tree other,
        toJsonAll_eq_iff trees others]

end

/-- Trees are exported alike exactly if they agree at every node. -/
theorem render_eq_iff {tree other : Tree} :
    tree.toJson.render = other.toJson.render ↔ tree.Alike other := by
  rw [Json.render_inj, toJson_eq_iff]

end Tree

end Lineage
