import Lineage.Proofs.Lexical.ImportForms
import Lineage.Proofs.Tags.Attested
import Lineage.Proofs.Tags.Groups
import Lineage.Proofs.Tags.Names
import Lineage.Proofs.Tags.Openings

/-!
# Imports and the tags of markup

A component leaves evidence in two places: a line of code imports it, and a template opens its tag.
Both should end up in one group.  An import is put down as the tag that a template would open, so
the question is whether a scan of markup recognises this tag when it meets it.

The two scans have alphabets of their own.  An import takes any word for a component, in any script,
and the spelling in tags changes only the capitals of ASCII; a tag ends at the first character that
is not in ASCII.  So the answer lies in the identifier: the tag of an import is recognised if the
identifier is in ASCII, and otherwise no markup whatever has a tag that could be put into the group
of the import.

## Main results

* `Import.isWord_of_component?`: an import names a component by a word.
* `isAscii_kebab_iff`: the spelling in tags stays within ASCII, and within nothing else.
* `findAll_format`: what a scan of markup finds in a tag, whatever this was written from.
* `findAll_kebab_iff`: when the tag of an import is found, and grouped with it.
-/

namespace Lineage

namespace Lexical

/-! ## Components of imports -/

/-- An import names a component by a word. -/
theorem Import.isWord_of_component? {line home ident : String}
    (h : Import.component? line home = some ident) :
    ident.toList ≠ [] ∧ ∀ c ∈ ident.toList, Unicode.isWord c = true := by
  obtain ⟨lead, rest, -, hrule⟩ := exists_of_firstMatch? (component?_eq_some_iff.mp h)
  obtain ⟨-, parts, hparts, -, hcomponent⟩ := componentAt?_eq_some_iff.mp hrule
  rw [← hcomponent]
  exact ⟨hparts.component_ne_nil, hparts.isWord_component⟩

namespace Tag

/-! ## Spelling in tags -/

/-- The text is in ASCII. -/
def IsAscii (text : String) : Prop := ∀ c ∈ text.toList, c.toNat < 0x80

instance (text : String) : Decidable (IsAscii text) := List.decidableBAll _ text.toList

/-- A word of ASCII has only characters of identifiers. -/
theorem isIdent_of_isWord {c : Char} (hword : Unicode.isWord c = true) (hascii : c.toNat < 0x80) :
    isIdent c = true := by
  rw [Unicode.isWord, if_pos hascii] at hword
  have hcase : (c.isAlphanum || c = '_') = true := by simpa using hword
  rw [isIdent, hcase]
  rfl

/-- Nothing but a hyphen at the start, the mark of a capital there, is left out of the spelling. -/
theorem kebab_cases (ident : String) :
    ∃ lead, (lead = [] ∨ lead = ['-']) ∧
      ident.toList.flatMap kebabChar = lead ++ (kebab ident).toList := by
  rw [kebab]
  split
  · next rest hspelled =>
      refine ⟨['-'], .inr rfl, ?_⟩
      rw [hspelled, String.toList_ofList]
      rfl
  · refine ⟨[], .inl rfl, ?_⟩
    rw [String.toList_ofList]
    rfl

theorem isIdent_of_mem_kebabChar {c d : Char} (hc : isIdent c = true) (hd : d ∈ kebabChar c) :
    isIdent d = true := by
  have hcodes : ∀ code < 0x80, isIdent (Char.ofNat code) = true →
      (kebabChar (Char.ofNat code)).all isIdent = true := by decide
  have hall := hcodes c.toNat (toNat_lt_of_isIdent hc)
  rw [Char.ofNat_toNat] at hall
  exact List.all_eq_true.mp (hall hc) d hd

/-- A character that is none of identifiers is spelled as it is. -/
theorem kebabChar_of_not_isIdent {c : Char} (h : isIdent c = false) : kebabChar c = [c] := by
  rw [kebabChar, if_neg]
  intro hupper
  have hcase : c.isAlphanum = true := by
    show ((c.isUpper || c.isLower) || c.isDigit) = true
    rw [hupper]
    rfl
  rw [isIdent, hcase] at h
  cases h

/-- Leaving out a hyphen at the start takes no other character out of the spelling. -/
theorem mem_kebab_iff {ident : String} {c : Char} (hc : c ≠ '-') :
    c ∈ (kebab ident).toList ↔ ∃ d ∈ ident.toList, c ∈ kebabChar d := by
  obtain ⟨lead, hlead, hspelled⟩ := kebab_cases ident
  have hnot : c ∉ lead := by
    rcases hlead with rfl | rfl
    · exact List.not_mem_nil
    · rwa [List.mem_singleton]
  rw [← List.mem_flatMap, hspelled, List.mem_append, or_iff_right hnot]

theorem isIdentText_kebab {ident : String} (h : IsIdentText ident) : IsIdentText (kebab ident) := by
  intro c hc
  by_cases hhyphen : c = '-'
  · rw [hhyphen]
    rfl
  · obtain ⟨d, hd, hspelled⟩ := (mem_kebab_iff hhyphen).mp hc
    exact isIdent_of_mem_kebabChar (h d hd) hspelled

section

variable {ident : String} (hword : ∀ c ∈ ident.toList, Unicode.isWord c = true)

include hword

theorem isIdentText_iff_isAscii : IsIdentText ident ↔ IsAscii ident :=
  ⟨fun h c hc => toNat_lt_of_isIdent (h c hc),
    fun h c hc => isIdent_of_isWord (hword c hc) (h c hc)⟩

/-- The spelling of a word in tags can be read in a tag exactly if the word is in ASCII. -/
theorem isAscii_kebab_iff : IsIdentText (kebab ident) ↔ IsAscii ident := by
  rw [← isIdentText_iff_isAscii hword]
  refine ⟨fun h c hc => ?_, isIdentText_kebab⟩
  by_contra hnot
  rw [Bool.not_eq_true] at hnot
  have hhyphen : c ≠ '-' := by
    rintro rfl
    cases hnot
  have hspelled : c ∈ (kebab ident).toList := by
    refine (mem_kebab_iff hhyphen).mpr ⟨c, hc, ?_⟩
    rw [kebabChar_of_not_isIdent hnot]
    exact List.mem_singleton_self c
  rw [h c hspelled] at hnot
  cases hnot

/-- What is made of a word has no brackets in it. -/
theorem unbracketed_kebab : ∀ c ∈ (kebab ident).toList, isBracket c = false := by
  intro c hc
  by_cases hhyphen : c = '-'
  · rw [hhyphen]
    rfl
  · obtain ⟨d, hd, hspelled⟩ := (mem_kebab_iff hhyphen).mp hc
    cases hident : isIdent d with
    | true => exact isBracket_eq_false_of_isIdent (isIdent_of_mem_kebabChar hident hspelled)
    | false =>
        rw [kebabChar_of_not_isIdent hident, List.mem_singleton] at hspelled
        have hwordc : Unicode.isWord c = true := hspelled ▸ hword d hd
        have hopen : c ≠ '<' := by
          rintro rfl
          revert hwordc
          decide
        have hclose : c ≠ '>' := by
          rintro rfl
          revert hwordc
          decide
        simp [isBracket, hopen, hclose]

/-- Something is left of a word. -/
theorem kebab_ne_nil (hne : ident.toList ≠ []) : (kebab ident).toList ≠ [] := by
  intro hnil
  obtain ⟨c, rest, hchars⟩ := List.exists_cons_of_ne_nil hne
  obtain ⟨lead, hlead, hspelled⟩ := kebab_cases ident
  have hhyphen : c ≠ '-' := by
    rintro rfl
    have hwordc := hword '-' (by rw [hchars]; exact List.mem_cons_self)
    revert hwordc
    decide
  rw [hnil, List.append_nil, hchars, List.flatMap_cons, kebabChar] at hspelled
  split at hspelled
  · rcases hlead with rfl | rfl <;> simp at hspelled
  · rcases hlead with rfl | rfl
    · simp at hspelled
    · rw [List.singleton_append, List.cons.injEq] at hspelled
      exact hhyphen hspelled.1

end

/-! ## Tags that are read again -/

theorem takeWhile_isIdent_close (ident : List Char) :
    (ident ++ ['>']).takeWhile isIdent = ident.takeWhile isIdent := by
  induction ident with
  | nil => rfl
  | cons c ident ih => simp only [List.cons_append, List.takeWhile_cons, ih]

/-- A scan finds one tag in a tag, with as much of what this was written from as it can read, or
none if it can read nothing of it. -/
theorem findAll_format {tagPrefix ident : String} (hplain : IsPlainPrefix tagPrefix)
    (hident : ∀ c ∈ ident.toList, isBracket c = false) :
    findAll (format tagPrefix ident) tagPrefix =
      if (ident.toList.takeWhile isIdent).isEmpty then []
      else [format tagPrefix (String.ofList (ident.toList.takeWhile isIdent))] := by
  have htext : (format tagPrefix ident).toList =
      (opener tagPrefix).toList ++ (ident.toList ++ ['>']) := by
    simp [format, opener]
  have hcons : (opener tagPrefix).toList ++ (ident.toList ++ ['>']) =
      '<' :: (tagPrefix.toList ++ '-' :: (ident.toList ++ ['>'])) := by
    simp [opener]
  have hrest : '<' ∉ tagPrefix.toList ++ '-' :: (ident.toList ++ ['>']) := by
    intro hmem
    have hbracket : isBracket '<' = true := rfl
    simp only [List.mem_append, List.mem_cons, List.not_mem_nil, or_false, Char.reduceEq,
      false_or] at hmem
    rcases hmem with hmem | hmem
    · rw [isBracket_eq_false_of_isIdent (hplain _ hmem).1] at hbracket
      cases hbracket
    · rw [hident _ hmem] at hbracket
      cases hbracket
  have hnone : ∀ covered, matchesFrom (identAt? (opener tagPrefix).toList) covered (some '<')
      (tagPrefix.toList ++ '-' :: (ident.toList ++ ['>'])) = [] := by
    refine matchesFrom_eq_nil fun lead rest hcut => identAt?_eq_none fun hhead => hrest ?_
    rw [hcut]
    exact List.mem_append_right _ (List.mem_of_mem_head? hhead)
  have hfirst : identAt? (opener tagPrefix).toList none
      ('<' :: (tagPrefix.toList ++ '-' :: (ident.toList ++ ['>']))) =
      if (ident.toList.takeWhile isIdent).isEmpty then none
      else some ⟨ident.toList.takeWhile isIdent, (opener tagPrefix).toList.length +
        (ident.toList.takeWhile isIdent).length⟩ := by
    rw [← hcons, identAt?, Text.after?_append]
    simp only [takeWhile_isIdent_close]
  rw [findAll, idents, htext, hcons, allMatches, matchesFrom, hfirst]
  by_cases hempty : (ident.toList.takeWhile isIdent).isEmpty = true
  · simp [hempty, hnone]
  · simp [hempty, hnone]

theorem format_injective {tagPrefix ident other : String}
    (h : format tagPrefix ident = format tagPrefix other) : ident = other := by
  have hchars := congrArg String.toList h
  rw [toList_format, toList_format] at hchars
  exact String.toList_injective (by simpa using hchars)

/-- A tag is found as it is exactly if it was written from an identifier. -/
theorem findAll_format_eq_singleton_iff {tagPrefix ident : String}
    (hplain : IsPlainPrefix tagPrefix) (hident : ∀ c ∈ ident.toList, isBracket c = false)
    (hne : ident.toList ≠ []) :
    findAll (format tagPrefix ident) tagPrefix = [format tagPrefix ident] ↔ IsIdentText ident := by
  rw [findAll_format hplain hident]
  constructor
  · intro h
    split at h
    · cases h
    · have hsame := format_injective (List.cons.inj h).1
      intro c hc
      rw [← hsame, String.toList_ofList] at hc
      exact List.all_eq_true.mp List.all_takeWhile c hc
  · intro h
    have hwhole : ident.toList.takeWhile isIdent = ident.toList := List.takeWhile_eq_self_iff.mpr h
    rw [hwhole, if_neg (by simpa using hne), String.ofList_toList]

end Tag

end Lexical

/-! ## Usages of imports and of markup -/

namespace TagUsage

open Lexical Tag

variable {tagPrefix : String}

/-- A scan of a text of one line finds what the line opens. -/
theorem inMarkup_of_line {line : String} (hline : '\n' ∉ line.toList) (tagPrefix : String)
    (template : Option Path) :
    inMarkup line tagPrefix template = onMarkupLine tagPrefix template 1 line := by
  have hlines : Text.lines line.toList = [line.toList] := Text.fields_eq_singleton hline
  rw [inMarkup, numberedLines, hlines]
  simp

/-- The tags that a scan of markup puts down are tags that some line opens. -/
theorem exists_line_of_mem_inMarkup {text : String} {template : Option Path} {usage : TagUsage}
    (h : usage ∈ inMarkup text tagPrefix template) :
    ∃ line, usage.tag ∈ findAll line tagPrefix := by
  obtain ⟨⟨number, line⟩, -, husage⟩ := List.mem_flatMap.mp h
  obtain ⟨tag, htag, rfl⟩ := List.mem_map.mp husage
  exact ⟨line, htag⟩

/-- Some markup has a usage of the name. -/
def FoundInMarkup (tagPrefix name : String) : Prop :=
  ∃ text template, ∃ usage ∈ inMarkup text tagPrefix template, usage.name = name

theorem foundInMarkup_iff {ident : String} (hplain : IsPlainPrefix tagPrefix)
    (hne : ident.toList ≠ []) : FoundInMarkup tagPrefix ident ↔ IsIdentText ident := by
  constructor
  · rintro ⟨text, template, usage, husage, rfl⟩
    obtain ⟨line, htag⟩ := exists_line_of_mem_inMarkup husage
    exact isIdentText_name_of_mem_findAll hplain htag
  · intro hident
    have hline : '\n' ∉ (format tagPrefix ident).toList := by
      intro hmem
      have hnot : isIdent '\n' = false := rfl
      have hinner : '\n' ∈ tagPrefix.toList ++ '-' :: ident.toList := by
        simpa [format] using hmem
      rw [isIdent_of_mem_inner hplain hident _ hinner] at hnot
      cases hnot
    have hfound : findAll (format tagPrefix ident) tagPrefix = [format tagPrefix ident] :=
      (findAll_format_eq_singleton_iff hplain hident.unbracketed hne).mpr hident
    let usage : TagUsage :=
      ⟨format tagPrefix ident, 1, Text.stripped (format tagPrefix ident), none⟩
    have hthere : usage ∈ inMarkup (format tagPrefix ident) tagPrefix none := by
      rw [inMarkup_of_line hline, onMarkupLine, hfound]
      exact List.mem_singleton_self _
    exact ⟨_, none, usage, hthere, name_format hplain hident⟩

/-- A usage is in the group of its name, with all usages of the name and no others. -/
theorem exists_group_of_mem {usages : List TagUsage} {usage : TagUsage} (h : usage ∈ usages) :
    ∃ group, (usage.name, group) ∈ groups usages ∧
      ∀ other ∈ usages, other ∈ group ↔ other.name = usage.name := by
  refine ⟨ofName usage.name usages, mem_groups_iff.mpr ⟨List.mem_map_of_mem h, rfl⟩, ?_⟩
  intro other hother
  simp [ofName, hother]

/-- The tag of an import is one that a scan of markup finds exactly if the identifier is in ASCII.
The usage of the import is in the group of the spelled identifier, together with all usages of this
name; but markup has such usages only if the identifier is in ASCII. -/
theorem findAll_kebab_iff {line home tagPrefix ident : String}
    (htagPrefix : Cli.Running.isTagPrefix tagPrefix = true)
    (hident : Import.component? line home = some ident) :
    (findAll (format tagPrefix (kebab ident)) tagPrefix = [format tagPrefix (kebab ident)] ↔
      IsAscii ident) ∧
    ∀ (file : Option Path) (number : Nat),
      ∃ imported, onImportLine? home tagPrefix file number line = some imported ∧
        imported.tag = format tagPrefix (kebab ident) ∧
        (FoundInMarkup tagPrefix imported.name ↔ IsAscii ident) ∧
        ∀ usages, imported ∈ usages → ∃ group, (kebab ident, group) ∈ groups usages ∧
          ∀ usage ∈ usages, usage ∈ group ↔ usage.name = imported.name := by
  have hplain := Cli.Running.isPlainPrefix_of_isTagPrefix htagPrefix
  obtain ⟨hne, hword⟩ := Import.isWord_of_component? hident
  have hspelled : (kebab ident).toList ≠ [] := kebab_ne_nil hword hne
  have hfree := unbracketed_kebab hword
  have hname : Tag.name (format tagPrefix (kebab ident)) = kebab ident :=
    name_format_of_unbracketed hplain hfree
  refine ⟨?_, fun file number => ⟨_, by rw [onImportLine?, hident]; rfl, rfl, ?_, ?_⟩⟩
  · rw [findAll_format_eq_singleton_iff hplain hfree hspelled, isAscii_kebab_iff hword]
  · rw [TagUsage.name, hname, foundInMarkup_iff hplain hspelled, isAscii_kebab_iff hword]
  · intro usages himported
    obtain ⟨group, hgroup, hothers⟩ := exists_group_of_mem himported
    rw [TagUsage.name, hname] at hgroup
    exact ⟨group, hgroup, hothers⟩

/-- A run of capitals is spelled letter by letter, and the tag is found so. -/
theorem findAll_kebab_iff_capitals :
    Import.component? "import widget from 'c/myHTMLWidget';" "c" = some "myHTMLWidget" ∧
      findAll "<c-my-h-t-m-l-widget>" "c" = ["<c-my-h-t-m-l-widget>"] := by
  have hident : Import.component? "import widget from 'c/myHTMLWidget';" "c" =
      some "myHTMLWidget" := rfl
  have htagPrefix : Cli.Running.isTagPrefix "c" = true := by decide
  obtain ⟨hfound, -⟩ := findAll_kebab_iff htagPrefix hident
  exact ⟨hident, hfound.mpr (by decide)⟩

/-- An accent is part of the import, and the tag that is made of it is found without it and what
follows. -/
theorem not_findAll_kebab_accent :
    ¬ (∀ line home tagPrefix ident, Cli.Running.isTagPrefix tagPrefix = true →
      Import.component? line home = some ident →
      findAll (format tagPrefix (kebab ident)) tagPrefix = [format tagPrefix (kebab ident)]) ∧
    Import.component? "import a from 'c/café'" "c" = some "café" ∧
      findAll (format "c" (kebab "café")) "c" = ["<c-caf>"] := by
  have hident : Import.component? "import a from 'c/café'" "c" = some "café" := by decide +kernel
  have hfound : findAll (format "c" (kebab "café")) "c" = ["<c-caf>"] := by decide +kernel
  refine ⟨fun hall => ?_, hident, hfound⟩
  have hsame := hall _ _ "c" _ (by decide) hident
  rw [hfound] at hsame
  revert hsame
  decide

end TagUsage

end Lineage
