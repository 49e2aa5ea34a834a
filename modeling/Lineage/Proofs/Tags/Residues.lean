import Lineage.Proofs.Tags.Imports
import Lineage.Settings

/-!
# Tags whose prefix has a hyphen

A usage is named without a look at the prefix: the name is what follows the first hyphen in the tag.
Settings can carry any text as the prefix.  If it has no hyphen, the first hyphen in the tag is the
one before the identifier, and the name is the identifier.  If it has one, the tag is cut there, and
whatever follows it in the prefix stands in front of every name: the *residue* of the prefix.

Brackets in the prefix make no difference.  Some of them are taken off together with those of the
tag, but never a hyphen, so the tag is cut at the same place.

## Main results

* `Lexical.Tag.name_format_eq`: a name is the residue of the prefix, followed by the identifier.
* `Lexical.Tag.residue_eq_empty_iff`: exactly the prefixes without a hyphen have no residue.
* `TagUsage.name_eq_ident_iff`: what the usages of markup and of imports are named, whatever the
  prefix, and that their names are the identifiers exactly if the prefix has no hyphen.
-/

namespace Lineage

namespace Lexical.Tag

/-- What a prefix leaves in front of the names of its tags: all that follows its first hyphen, and
the hyphen between prefix and identifier. -/
def residue (tagPrefix : String) : String :=
  match tagPrefix.toList.dropWhile (· ≠ '-') with
  | [] => ""
  | _hyphen :: rest => String.ofList rest ++ "-"

/-! ## Where a tag is cut -/

/-- The bracket at the end of a tag goes, and at the front all brackets go that the prefix starts
with. -/
theorem trim_format_eq (tagPrefix : String) {ident : String}
    (hident : ∀ c ∈ ident.toList, isBracket c = false) :
    Text.trim isBracket (format tagPrefix ident).toList =
      tagPrefix.toList.dropWhile isBracket ++ '-' :: ident.toList := by
  have hsplit : (format tagPrefix ident).toList =
      ('<' :: tagPrefix.toList.takeWhile isBracket) ++
        ((tagPrefix.toList.dropWhile isBracket ++ '-' :: ident.toList) ++ ['>']) := by
    have hlead := List.takeWhile_append_dropWhile (p := isBracket) (l := tagPrefix.toList)
    rw [List.append_assoc, ← List.append_assoc ('<' :: _), List.cons_append, hlead, toList_format,
      List.append_assoc]
    rfl
  rw [hsplit]
  apply Text.trim_append_of_ends
  · intro c hc
    rcases List.mem_cons.mp hc with rfl | hc
    · rfl
    · exact List.all_eq_true.mp List.all_takeWhile c hc
  · rw [List.head?_append]
    cases hrest : (tagPrefix.toList.dropWhile isBracket).head? with
    | none => rfl
    | some c =>
        have hc := List.head?_dropWhile_not isBracket tagPrefix.toList
        rw [hrest] at hc
        simpa using hc
  · have hlast : ('-' :: ident.toList).getLast? =
        some (('-' :: ident.toList).getLast (List.cons_ne_nil _ _)) :=
      List.getLast?_eq_some_getLast _
    rw [List.getLast?_append, hlast, Option.some_or, Option.any_some]
    rcases List.mem_cons.mp (List.getLast_mem (List.cons_ne_nil '-' ident.toList)) with hc | hc
    · rw [hc]
      rfl
    · exact hident _ hc
  · intro c hc
    rw [List.mem_singleton.mp hc]
    rfl

/-- A tag is cut at the first hyphen of its prefix, or else at the one before the identifier. -/
theorem dropWhile_trim_format (tagPrefix : String) {ident : String}
    (hident : ∀ c ∈ ident.toList, isBracket c = false) :
    (Text.trim isBracket (format tagPrefix ident).toList).dropWhile (· ≠ '-') =
      '-' :: ((residue tagPrefix).toList ++ ident.toList) := by
  have hbrackets : ∀ c ∈ tagPrefix.toList.takeWhile isBracket, decide (c ≠ '-') = true := by
    intro c hc
    have hbracket : isBracket c = true := List.all_eq_true.mp List.all_takeWhile c hc
    apply decide_eq_true
    rintro rfl
    cases hbracket
  have hwhole : (tagPrefix.toList.dropWhile isBracket).dropWhile (· ≠ '-') =
      tagPrefix.toList.dropWhile (· ≠ '-') := by
    calc (tagPrefix.toList.dropWhile isBracket).dropWhile (· ≠ '-')
      _ = (tagPrefix.toList.takeWhile isBracket ++
            tagPrefix.toList.dropWhile isBracket).dropWhile (· ≠ '-') :=
          (List.dropWhile_append_of_pos hbrackets).symm
      _ = tagPrefix.toList.dropWhile (· ≠ '-') := by rw [List.takeWhile_append_dropWhile]
  rw [trim_format_eq tagPrefix hident, List.dropWhile_append, hwhole]
  unfold residue
  cases hcut : tagPrefix.toList.dropWhile (· ≠ '-') with
  | nil => simp
  | cons c rest =>
      have hhyphen : c = '-' := by
        have hc := List.head?_dropWhile_not (fun c => decide (c ≠ '-')) tagPrefix.toList
        rw [hcut] at hc
        simpa using hc
      simp [hhyphen]

/-- The name of a tag is the residue of its prefix, followed by the identifier. -/
theorem name_format_eq (tagPrefix : String) {ident : String}
    (hident : ∀ c ∈ ident.toList, isBracket c = false) :
    name (format tagPrefix ident) = residue tagPrefix ++ ident := by
  have hcut : (Text.trim (fun c => c = '<' || c = '>') (format tagPrefix ident).toList).dropWhile
      (· ≠ '-') = '-' :: ((residue tagPrefix).toList ++ ident.toList) :=
    dropWhile_trim_format tagPrefix hident
  rw [name, hcut, ← String.toList_append]
  exact String.ofList_toList

theorem residue_eq_empty_iff {tagPrefix : String} :
    residue tagPrefix = "" ↔ '-' ∉ tagPrefix.toList := by
  unfold residue
  constructor
  · intro h hhyphen
    split at h
    · next hnone =>
        have hall := List.dropWhile_eq_nil_iff.mp hnone '-' hhyphen
        simp at hall
    · simp at h
  · intro h
    have hnone : tagPrefix.toList.dropWhile (· ≠ '-') = [] := by
      rw [List.dropWhile_eq_nil_iff]
      intro c hc
      apply decide_eq_true
      rintro rfl
      exact h hc
    rw [hnone]

theorem residue_append_eq_iff {tagPrefix ident : String} :
    residue tagPrefix ++ ident = ident ↔ '-' ∉ tagPrefix.toList := by
  rw [← residue_eq_empty_iff, ← String.toList_inj, ← String.toList_inj, String.toList_append]
  simp

end Lexical.Tag

namespace TagUsage

open Lexical Lexical.Tag

/-! ## Usages -/

theorem map_name_onMarkupLine (tagPrefix : String) (file : Option Path) (number : Nat)
    (line : String) :
    (onMarkupLine tagPrefix file number line).map name =
      (idents line tagPrefix).map (residue tagPrefix ++ ·) := by
  unfold onMarkupLine findAll
  rw [List.map_map, List.map_map]
  apply List.map_congr_left
  intro ident hident
  exact name_format_eq tagPrefix (isIdent_of_mem_idents hident).unbracketed

theorem map_name_onImportLine? (home tagPrefix : String) (file : Option Path) (number : Nat)
    (line : String) :
    (onImportLine? home tagPrefix file number line).map name =
      (Import.component? line home).map fun ident => residue tagPrefix ++ kebab ident := by
  unfold onImportLine?
  cases hident : Import.component? line home with
  | none => rfl
  | some ident =>
      obtain ⟨-, hword⟩ := Import.isWord_of_component? hident
      exact congrArg some (name_format_eq tagPrefix (unbracketed_kebab hword))

/-- A usage of a tag on a line is named by the identifier in the tag, and one that an import stands
for by the spelling of the component, exactly if the prefix has no hyphen.  In any case all usages
of a text are named by the residue of the prefix followed by that. -/
theorem name_eq_ident_iff (tagPrefix : String) :
    (∀ line, ∀ ident ∈ idents line tagPrefix, ∀ usage : TagUsage,
      usage.tag = format tagPrefix ident → (usage.name = ident ↔ '-' ∉ tagPrefix.toList)) ∧
    (∀ home file number line, ∀ ident ∈ Import.component? line home,
      ∃ usage, onImportLine? home tagPrefix file number line = some usage ∧
        (usage.name = kebab ident ↔ '-' ∉ tagPrefix.toList)) ∧
    ∀ text file,
      (inMarkup text tagPrefix file).map name =
        (numberedLines text).flatMap (fun (_, line) =>
          (idents line tagPrefix).map (residue tagPrefix ++ ·)) ∧
      ∀ home, (inImports text home tagPrefix file).map name =
        (numberedLines text).filterMap fun (_, line) =>
          (Import.component? line home).map fun ident => residue tagPrefix ++ kebab ident := by
  refine ⟨?_, ?_, fun text file => ⟨?_, fun home => ?_⟩⟩
  · intro line ident hident usage htag
    have hname : usage.name = residue tagPrefix ++ ident := by
      rw [name, htag, name_format_eq tagPrefix (isIdent_of_mem_idents hident).unbracketed]
    rw [hname, residue_append_eq_iff]
  · intro home file number line ident hident
    have hname := map_name_onImportLine? home tagPrefix file number line
    rw [Option.mem_def.mp hident] at hname
    obtain ⟨usage, husage, hname⟩ := Option.map_eq_some_iff.mp hname
    exact ⟨usage, husage, by rw [hname, residue_append_eq_iff]⟩
  · unfold inMarkup
    rw [List.map_flatMap]
    simp only [map_name_onMarkupLine]
  · unfold inImports
    rw [List.map_filterMap]
    simp only [map_name_onImportLine?]

/-- With a hyphen in the prefix, both kinds of usages have what follows it in their names. -/
theorem name_eq_ident_iff_hyphen :
    "card" ∈ idents "<my-app-card>" "my-app" ∧
      "sideBar" ∈ Import.component? "import x from 'ui/sideBar'" "ui" ∧
      (inMarkup "\n<my-app-card>" "my-app" none).map name = ["app-card"] ∧
      (inImports "import x from 'ui/sideBar'" "ui" "my-app" none).map name = ["app-side-bar"] ∧
      (⟨"<my-app-card>", 2, "<my-app-card>", none⟩ : TagUsage).name ≠ "card" := by
  have hident : "card" ∈ idents "<my-app-card>" "my-app" := by decide
  have himport : "sideBar" ∈ Import.component? "import x from 'ui/sideBar'" "ui" := by
    rfl
  obtain ⟨hmatch, -, htexts⟩ := name_eq_ident_iff "my-app"
  have hmarkup := (htexts "\n<my-app-card>" none).1
  have himports := (htexts "import x from 'ui/sideBar'" none).2 "ui"
  refine ⟨hident, himport, ?_, ?_, fun hname => ?_⟩
  · rw [hmarkup]
    rfl
  · rw [himports]
    rfl
  · have hplain := (hmatch _ _ hident ⟨"<my-app-card>", 2, "<my-app-card>", none⟩ rfl).mp hname
    exact hplain (by decide)

/-- Settings take a prefix with a hyphen, and tags of it are found, but their names are not the
identifiers. -/
theorem not_name_eq_ident_hyphen :
    (∃ settings,
      Settings.withOverrides {} [("tag_prefix", .scalar (.text "my-app"))] = .ok settings ∧
        settings.tagPrefix = "my-app") ∧
    findAll "<my-app-card>" "my-app" = ["<my-app-card>"] ∧
    ¬ (∀ tagPrefix line, ∀ ident ∈ idents line tagPrefix, ∀ usage : TagUsage,
      usage.tag = format tagPrefix ident → usage.name = ident) := by
  have hname : (⟨"<my-app-card>", 1, "", none⟩ : TagUsage).name = "app-card" := rfl
  refine ⟨⟨{ tagPrefix := "my-app" }, rfl, rfl⟩, by decide, fun hall => ?_⟩
  have hsame := hall "my-app" "<my-app-card>" "card" (by decide)
    ⟨"<my-app-card>", 1, "", none⟩ (by decide)
  rw [hname] at hsame
  revert hsame
  decide

end TagUsage

end Lineage
