import Lineage.Lexical.Import
import Lineage.Proofs.Lexical.Overlaps

/-!
# The form of an import

An import is the keyword, a clause, the keyword `from` and the quoted name of a module, with blanks
between.  A clause may itself have blanks in it, and the word `from`, so a text can be cut into
these parts in more than one way.  The rule for imports does not try them one after the other: the
clause has no quotes in it, so it goes to the first quote and reads backwards from there.  This
module shows that it recognises the texts that can be cut in one way or another, and that all ways
to cut a text name the same component.

The search for an import is given up at once on a line that lacks the keyword or the namespace.
Every import has both, so this makes no difference to what is found.

## Main results

* `isClauseWithSource_iff`: reading backwards recognises what can be cut into clause and `from`.
* `componentAt?_eq_some_iff`: the rule for imports recognises their form and nothing else.
* `component?_eq_firstMatch?`: giving up at once loses nothing.
* `component?_reads_first_import`: what is imported by a line.
-/

namespace Lineage.Lexical.Import

/-! ## The parts of an import -/

/-- The keyword before the module. -/
def source : List Char := ['f', 'r', 'o', 'm']

/-- The parts into which the text of an import is cut. -/
structure Parts where
  /-- The blanks before the clause. -/
  lead : List Char
  clause : List Char
  /-- The blanks between the clause and `from`. -/
  middle : List Char
  /-- The blanks between `from` and the module. -/
  last : List Char
  opening : Char
  component : List Char
  closing : Char
  /-- What follows the import. -/
  rest : List Char

/-- The text between the keyword and the module. -/
def Parts.region (parts : Parts) : List Char :=
  parts.lead ++ (parts.clause ++ (parts.middle ++ (source ++ parts.last)))

/-- The quoted name of the module, and what follows. -/
def Parts.reference (parts : Parts) (home : List Char) : List Char :=
  parts.opening :: (home ++ '/' :: (parts.component ++ parts.closing :: parts.rest))

/-- The text of an import from the namespace. -/
def Parts.text (parts : Parts) (home : List Char) : List Char :=
  keyword ++ (parts.region ++ parts.reference home)

/-- The parts have the characters they should have. -/
structure Parts.WellFormed (parts : Parts) : Prop where
  lead_ne_nil : parts.lead ≠ []
  isBlank_lead : ∀ c ∈ parts.lead, Unicode.isBlank c = true
  clause_ne_nil : parts.clause ≠ []
  isClause_clause : ∀ c ∈ parts.clause, isClause c = true
  middle_ne_nil : parts.middle ≠ []
  isBlank_middle : ∀ c ∈ parts.middle, Unicode.isBlank c = true
  last_ne_nil : parts.last ≠ []
  isBlank_last : ∀ c ∈ parts.last, Unicode.isBlank c = true
  opening : isQuote parts.opening = true
  component_ne_nil : parts.component ≠ []
  isWord_component : ∀ c ∈ parts.component, Unicode.isWord c = true
  closing : isQuote parts.closing = true

/-- An import of the component from the namespace starts at the position. -/
def ImportsAt (home : List Char) (before : Option Char) (text component : List Char) : Prop :=
  isWordAt before = false ∧
    ∃ parts : Parts, parts.WellFormed ∧ text = parts.text home ∧ parts.component = component

variable {home text component region : List Char} {before : Option Char}

/-! ## Characters -/

theorem isClause_of_isBlank {c : Char} (h : Unicode.isBlank c = true) : isClause c = true := by
  simp [isClause, h]

theorem isQuote_iff {c : Char} : isQuote c = true ↔ c = '\'' ∨ c = '"' := by
  simp [isQuote]

/-- Quotes are none of the characters of clauses, nor of words. -/
theorem isClause_eq_false_of_isQuote {c : Char} (h : isQuote c = true) : isClause c = false := by
  rcases isQuote_iff.mp h with rfl | rfl <;> decide

theorem isWord_eq_false_of_isQuote {c : Char} (h : isQuote c = true) :
    Unicode.isWord c = false := by
  rcases isQuote_iff.mp h with rfl | rfl <;> decide

/-! ## The clause, read from its end -/

/-- The text has something between its ends, which are blanks. -/
def IsPadded (text : List Char) : Prop :=
  3 ≤ text.length ∧ text.head?.any Unicode.isBlank = true ∧
    text.getLast?.any Unicode.isBlank = true

theorem isPadded_iff :
    IsPadded text ↔
      ∃ lead clause middle, text = lead ++ (clause ++ middle) ∧
        (lead ≠ [] ∧ ∀ c ∈ lead, Unicode.isBlank c = true) ∧ clause ≠ [] ∧
        (middle ≠ [] ∧ ∀ c ∈ middle, Unicode.isBlank c = true) := by
  constructor
  · rintro ⟨hlength, hfirst, hfinal⟩
    obtain ⟨first, others, rfl⟩ : ∃ first others, text = first :: others :=
      List.exists_cons_of_ne_nil (List.ne_nil_of_length_pos (by omega))
    rw [List.length_cons] at hlength
    obtain ⟨inner, final, rfl⟩ : ∃ inner final, others = inner ++ [final] := by
      have hne : others ≠ [] := List.ne_nil_of_length_pos (by omega)
      exact ⟨others.dropLast, others.getLast hne, (List.dropLast_append_getLast hne).symm⟩
    rw [List.length_append, List.length_singleton] at hlength
    rw [← List.cons_append, List.getLast?_concat] at hfinal
    exact ⟨[first], inner, [final], rfl, ⟨by simp, by simpa using hfirst⟩,
      List.ne_nil_of_length_pos (by omega), ⟨by simp, by simpa using hfinal⟩⟩
  · rintro ⟨lead, clause, middle, rfl, ⟨hleadNe, hlead⟩, hclause, hmiddleNe, hmiddle⟩
    have hleadPos := List.length_pos_iff.mpr hleadNe
    have hclausePos := List.length_pos_iff.mpr hclause
    have hmiddlePos := List.length_pos_iff.mpr hmiddleNe
    refine ⟨by simp only [List.length_append]; omega, ?_, ?_⟩
    · obtain ⟨c, others, rfl⟩ := List.exists_cons_of_ne_nil hleadNe
      exact hlead c List.mem_cons_self
    · rw [← List.append_assoc, List.getLast?_append, List.getLast?_eq_some_getLast hmiddleNe]
      exact hmiddle _ (List.getLast_mem hmiddleNe)

/-- Read from its end, the text is blanks, `from` backwards and the clause with its blanks. -/
theorem isClauseWithSource_iff_isPadded :
    isClauseWithSource region = true ↔
      ∃ body last, region = body ++ (source ++ last) ∧ IsPadded body ∧ last ≠ [] ∧
        ∀ c ∈ last, Unicode.isBlank c = true := by
  constructor
  · intro h
    unfold isClauseWithSource at h
    dsimp only at h
    have hcut : gap region.reverse ++ pastGap region.reverse = region.reverse :=
      List.takeWhile_append_dropWhile
    have hblank : ∀ c ∈ gap region.reverse, Unicode.isBlank c = true :=
      fun c hc => List.mem_takeWhile_imp hc
    generalize gap region.reverse = blanks at h hcut hblank
    split at h
    · cases h
    · next hne =>
        split at h
        · cases h
        · next clause hclause =>
            rw [Text.after?_eq_some_iff] at hclause
            simp only [Bool.and_eq_true, decide_eq_true_eq] at h
            refine ⟨clause.reverse, blanks.reverse, ?_, ?_, by simpa using hne, ?_⟩
            · rw [← List.reverse_inj, ← hcut, hclause]
              simp [source, sourceKeyword]
            · unfold IsPadded
              rw [List.length_reverse, List.head?_reverse, List.getLast?_reverse]
              exact ⟨h.1.1, h.2, h.1.2⟩
            · intro c hc
              exact hblank c (List.mem_reverse.mp hc)
  · rintro ⟨body, last, rfl, ⟨hlength, hfirst, hfinal⟩, hlastNe, hlast⟩
    have hreverse : (body ++ (source ++ last)).reverse =
        last.reverse ++ (sourceKeyword ++ body.reverse) := by simp [source, sourceKeyword]
    have hblank : ∀ c ∈ last.reverse, Unicode.isBlank c = true :=
      fun c hc => hlast c (List.mem_reverse.mp hc)
    have hhead : (sourceKeyword ++ body.reverse).head?.any Unicode.isBlank = false := rfl
    obtain ⟨hgap, hpast⟩ := takeWhile_run hblank hhead
    unfold isClauseWithSource gap pastGap
    simp [hreverse, hgap, hpast, hlastNe, hlength, hfirst, hfinal]

theorem isClauseWithSource_iff :
    isClauseWithSource region = true ↔
      ∃ lead clause middle last, region = lead ++ (clause ++ (middle ++ (source ++ last))) ∧
        (lead ≠ [] ∧ ∀ c ∈ lead, Unicode.isBlank c = true) ∧ clause ≠ [] ∧
        (middle ≠ [] ∧ ∀ c ∈ middle, Unicode.isBlank c = true) ∧
        (last ≠ [] ∧ ∀ c ∈ last, Unicode.isBlank c = true) := by
  rw [isClauseWithSource_iff_isPadded]
  constructor
  · rintro ⟨body, last, rfl, hpadded, hlast⟩
    obtain ⟨lead, clause, middle, rfl, hlead, hclause, hmiddle⟩ := isPadded_iff.mp hpadded
    exact ⟨lead, clause, middle, last, by simp, hlead, hclause, hmiddle, hlast⟩
  · rintro ⟨lead, clause, middle, last, rfl, hlead, hclause, hmiddle, hlast⟩
    exact ⟨lead ++ (clause ++ middle), last, by simp,
      isPadded_iff.mpr ⟨lead, clause, middle, rfl, hlead, hclause, hmiddle⟩, hlast⟩

/-! ## The module -/

/-- A quote behind the word that a text starts with. -/
theorem exists_closing (h : (pastWord text).head?.any isQuote = true) :
    ∃ closing rest, word text ++ closing :: rest = text ∧ isQuote closing = true := by
  obtain ⟨closing, rest, hrest⟩ : ∃ closing rest, pastWord text = closing :: rest := by
    apply List.exists_cons_of_ne_nil
    intro hnil
    simp [hnil] at h
  have hcut : word text ++ closing :: rest = text := by
    rw [← hrest, word, pastWord, List.takeWhile_append_dropWhile]
  exact ⟨closing, rest, hcut, by simpa [hrest] using h⟩

theorem module?_eq_some_iff :
    module? home text = some component ↔
      ∃ opening closing rest, text = opening :: (home ++ '/' :: (component ++ closing :: rest)) ∧
        isQuote opening = true ∧ component ≠ [] ∧ (∀ c ∈ component, Unicode.isWord c = true) ∧
        isQuote closing = true := by
  constructor
  · intro h
    cases text with
    | nil => cases h
    | cons opening text =>
        rw [module?] at h
        split at h
        · next hopening =>
            split at h
            · cases h
            · next after hafter =>
                rw [Text.after?_eq_some_iff] at hafter
                dsimp only at h
                split at h
                · cases h
                · next hne =>
                    split at h
                    · next hquote =>
                        cases h
                        obtain ⟨closing, rest, hcut, hclosing⟩ := exists_closing hquote
                        refine ⟨opening, closing, rest, ?_, hopening, by simpa using hne,
                          fun c hc => List.mem_takeWhile_imp hc, hclosing⟩
                        rw [hafter, hcut]
                        simp
                    · cases h
        · cases h
  · rintro ⟨opening, closing, rest, rfl, hopening, hne, hword, hclosing⟩
    have hends : (closing :: rest).head?.any Unicode.isWord = false :=
      isWord_eq_false_of_isQuote hclosing
    obtain ⟨htake, hdrop⟩ := takeWhile_run hword hends
    have hhome : home ++ '/' :: (component ++ closing :: rest) =
        (home ++ ['/']) ++ (component ++ closing :: rest) := by simp
    rw [module?, if_pos hopening, hhome, Text.after?_append]
    simp [word, pastWord, htake, hdrop, hne, hclosing]

/-! ## Imports at a position -/

theorem Parts.WellFormed.isClause_region {parts : Parts} (h : parts.WellFormed) :
    ∀ c ∈ parts.region, isClause c = true := by
  have hsource : ∀ c ∈ source, isClause c = true := List.all_eq_true.mp (by decide)
  intro c hc
  simp only [Parts.region, List.mem_append] at hc
  rcases hc with hc | hc | hc | hc | hc
  · exact isClause_of_isBlank (h.isBlank_lead c hc)
  · exact h.isClause_clause c hc
  · exact isClause_of_isBlank (h.isBlank_middle c hc)
  · exact hsource c hc
  · exact isClause_of_isBlank (h.isBlank_last c hc)

/-- The rule for imports recognises their form and nothing else. -/
theorem componentAt?_eq_some_iff :
    componentAt? home before text = some component ↔ ImportsAt home before text component := by
  constructor
  · intro h
    unfold componentAt? at h
    split at h
    · cases h
    · next after hkeyword =>
        obtain ⟨rfl, hstarts⟩ := afterKeyword?_eq_some_iff.mp hkeyword
        split at h
        · next hregion =>
            obtain ⟨lead, clause, middle, last, hcut, ⟨hleadNe, hlead⟩, hclause,
              ⟨hmiddleNe, hmiddle⟩, hlastNe, hlast⟩ := isClauseWithSource_iff.mp hregion
            obtain ⟨opening, closing, rest, hreference, hopening, hne, hword, hclosing⟩ :=
              module?_eq_some_iff.mp h
            have hall : ∀ c ∈ after.takeWhile isClause, isClause c = true :=
              fun c hc => List.mem_takeWhile_imp hc
            have hinner : ∀ c ∈ clause, isClause c = true := by
              intro c hc
              apply hall
              rw [hcut]
              simp [hc]
            refine ⟨hstarts, ⟨lead, clause, middle, last, opening, component, closing, rest⟩,
              ⟨hleadNe, hlead, hclause, hinner, hmiddleNe, hmiddle, hlastNe, hlast, hopening, hne,
                hword, hclosing⟩, ?_, rfl⟩
            unfold Parts.text Parts.region Parts.reference
            rw [← hcut, ← hreference, List.takeWhile_append_dropWhile]
        · cases h
  · rintro ⟨hstarts, parts, hparts, rfl, rfl⟩
    have hquote : (parts.reference home).head?.any isClause = false :=
      isClause_eq_false_of_isQuote hparts.opening
    obtain ⟨htake, hdrop⟩ := takeWhile_run hparts.isClause_region hquote
    have hregion : isClauseWithSource parts.region = true :=
      isClauseWithSource_iff.mpr ⟨parts.lead, parts.clause, parts.middle, parts.last, rfl,
        ⟨hparts.lead_ne_nil, hparts.isBlank_lead⟩, hparts.clause_ne_nil,
        ⟨hparts.middle_ne_nil, hparts.isBlank_middle⟩, hparts.last_ne_nil, hparts.isBlank_last⟩
    have hreference : module? home (parts.reference home) = some parts.component :=
      module?_eq_some_iff.mpr ⟨parts.opening, parts.closing, parts.rest, rfl, hparts.opening,
        hparts.component_ne_nil, hparts.isWord_component, hparts.closing⟩
    have hkeyword : afterKeyword? keyword before (parts.text home) =
        some (parts.region ++ parts.reference home) :=
      afterKeyword?_eq_some_iff.mpr ⟨rfl, hstarts⟩
    unfold componentAt?
    simp only [hkeyword, htake, hdrop, hregion, hreference, if_true]

/-- All ways to cut a text into the parts of an import name the same component. -/
theorem component_unique {parts other : Parts} (hparts : parts.WellFormed)
    (hother : other.WellFormed) (hsame : parts.text home = other.text home) :
    parts.component = other.component := by
  have hfirst := componentAt?_eq_some_iff.mpr
    (⟨rfl, parts, hparts, rfl, rfl⟩ : ImportsAt home none (parts.text home) parts.component)
  have hsecond := componentAt?_eq_some_iff.mpr
    (⟨rfl, other, hother, rfl, rfl⟩ : ImportsAt home none (other.text home) other.component)
  rw [hsame, hsecond] at hfirst
  exact (Option.some.inj hfirst).symm

/-- The component is the longest word that stands behind the namespace. -/
theorem word_component {parts : Parts} (hparts : parts.WellFormed) :
    word (parts.component ++ parts.closing :: parts.rest) = parts.component := by
  have hends : (parts.closing :: parts.rest).head?.any Unicode.isWord = false :=
    isWord_eq_false_of_isQuote hparts.closing
  exact (takeWhile_run hparts.isWord_component hends).1

/-! ## Imports of a line -/

/-- The keyword and the namespace stand in every text that has an import in it. -/
theorem occurs_of_importsAt {here : List Char} (lead : List Char)
    (h : ImportsAt home before here component) :
    Text.occurs keyword (lead ++ here) = true ∧
      Text.occurs (home ++ ['/']) (lead ++ here) = true := by
  obtain ⟨-, parts, -, rfl, rfl⟩ := h
  rw [Text.occurs_iff, Text.occurs_iff]
  constructor
  · exact ⟨lead, parts.region ++ parts.reference home, by simp [Parts.text]⟩
  · exact ⟨lead ++ (keyword ++ (parts.region ++ [parts.opening])),
      parts.component ++ parts.closing :: parts.rest, by simp [Parts.text, Parts.reference]⟩

/-- Giving up at once on a line without the keyword or the namespace loses nothing. -/
theorem component?_eq_firstMatch? (line home : String) :
    component? line home =
      (firstMatch? (componentAt? home.toList) none line.toList).map String.ofList := by
  unfold component?
  dsimp only
  split
  · rfl
  · next hoccurs =>
      cases hfirst : firstMatch? (componentAt? home.toList) none line.toList with
      | none => rfl
      | some component =>
          obtain ⟨lead, here, hcut, hfound⟩ := exists_of_firstMatch? hfirst
          obtain ⟨hkeyword, hhome⟩ :=
            occurs_of_importsAt lead (componentAt?_eq_some_iff.mp hfound)
          rw [hcut, hkeyword, hhome] at hoccurs
          exact absurd rfl hoccurs

theorem component?_eq_some_iff {line home ident : String} :
    component? line home = some ident ↔
      firstMatch? (componentAt? home.toList) none line.toList = some ident.toList := by
  rw [component?_eq_firstMatch?, Option.map_eq_some_iff]
  constructor
  · rintro ⟨component, hfirst, rfl⟩
    rwa [String.toList_ofList]
  · intro hfirst
    exact ⟨ident.toList, hfirst, String.ofList_toList⟩

/-- A line imports a component if it has an import at any position, and it is that of the leftmost
one.  However the text of an import is cut into its parts, its component is the same: the longest
word behind the namespace.  Looking for the keyword and the namespace beforehand changes nothing. -/
theorem component?_reads_first_import (line home : String) :
    (∀ ident, component? line home = some ident ↔
      ∃ lead here, line.toList = lead ++ here ∧
        ImportsAt home.toList (charBefore none lead) here ident.toList ∧
        ∀ earlier more, lead = earlier ++ more → more ≠ [] →
          ∀ other, ¬ ImportsAt home.toList (charBefore none earlier) (more ++ here) other) ∧
    ((component? line home).isSome = true ↔
      ∃ lead here component, line.toList = lead ++ here ∧
        ImportsAt home.toList (charBefore none lead) here component) ∧
    (∀ parts other : Parts, parts.WellFormed → other.WellFormed →
      parts.text home.toList = other.text home.toList →
        parts.component = other.component ∧
          word (parts.component ++ parts.closing :: parts.rest) = parts.component) ∧
    component? line home =
      (firstMatch? (componentAt? home.toList) none line.toList).map String.ofList := by
  refine ⟨?_, ?_, ?_, component?_eq_firstMatch? line home⟩
  · intro ident
    have hnone (before : Option Char) (text : List Char) :
        componentAt? home.toList before text = none ↔
          ∀ other, ¬ ImportsAt home.toList before text other := by
      rw [Option.eq_none_iff_forall_not_mem]
      apply forall_congr'
      intro other
      rw [Option.mem_def, componentAt?_eq_some_iff]
    rw [component?_eq_some_iff, firstMatch?_eq_some_iff]
    simp only [componentAt?_eq_some_iff, hnone]
  · rw [component?_eq_firstMatch?, Option.isSome_map, isSome_firstMatch?_iff]
    simp only [Option.isSome_iff_exists, componentAt?_eq_some_iff, exists_and_left]
  · intro parts other hparts hother hsame
    exact ⟨component_unique hparts hother hsame, word_component hparts⟩

/-- An import from another namespace does not hide the one behind it, and a clause may end in the
word that is looked for. -/
theorem component?_reads_first_import_behind :
    component? "import a from 'x/a'; import b, from from 'c/myChild'" "c" = some "myChild" ∧
      ∃ lead here, "import a from 'x/a'; import b, from from 'c/myChild'".toList = lead ++ here ∧
        ImportsAt "c".toList (charBefore none lead) here "myChild".toList := by
  have hident : component? "import a from 'x/a'; import b, from from 'c/myChild'" "c" =
      some "myChild" := by decide +kernel
  obtain ⟨hfirst, -⟩ :=
    component?_reads_first_import "import a from 'x/a'; import b, from from 'c/myChild'" "c"
  obtain ⟨lead, here, hcut, himports, -⟩ := (hfirst "myChild").mp hident
  exact ⟨hident, lead, here, hcut, himports⟩

end Lineage.Lexical.Import
