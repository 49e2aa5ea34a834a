import Lineage.Proofs.Lexical.Overlaps
import Lineage.Relation

/-!
# What names a parent mentions it

There are two ways to nominate a child by inheritance, and both take a text apart before they look
for the parent's name: a declaration is cut at its keywords, and a list of bases at its commas, then
at blanks, brackets and dots.  Whatever is cut off, something is left that stood in the text as it
is.  So a text that nominates a child of the parent has the parent's name in it, which is all that
composition asks of it.

No step needs to know what the name is made of.  It may hold blanks or brackets, or be empty.

## Main results

* `Extension.infix_of_mem_children`: the parent of a declared subclass stands in the text.
* `BaseList.infix_of_mem_children`: so does the parent that a list of bases names.
* `ChildRule.mentions_of_inherits`: inheritance implies mention.
-/

namespace Lineage

namespace Lexical

variable {name text : List Char}

theorem prefix_of_startsWithName (h : startsWithName name text = true) : name <+: text := by
  unfold startsWithName at h
  split at h
  · cases h
  · next rest hafter =>
      rw [Text.after?_eq_some_iff.mp hafter]
      exact List.prefix_append name rest

theorem infix_of_gapAndName? {length : Nat} (h : gapAndName? name text = some length) :
    name <:+: text := by
  obtain ⟨blanks, rest, rfl, -, -, hname, -⟩ := exists_of_gapAndName? h
  have hrest : name <:+: rest := (prefix_of_startsWithName hname).isInfix
  exact hrest.trans (List.suffix_append blanks rest).isInfix

/-! ## Subclasses -/

namespace Extension

variable {parent : List Char}

theorem infix_of_clause? {length : Nat} (h : clause? parent text = some length) :
    parent <:+: text := by
  unfold clause? at h
  dsimp only at h
  split at h
  · cases h
  · split at h
    · cases h
    · next rest hafter =>
        split at h
        · cases h
        · next found hfound =>
            have hparent : parent <:+: rest := infix_of_gapAndName? hfound
            have hrest : rest <:+ pastGap text := by
              rw [Text.after?_eq_some_iff.mp hafter]
              exact List.suffix_append keyword rest
            have hpast : pastGap text <:+ text := List.dropWhile_suffix _
            exact hparent.trans (hrest.trans hpast).isInfix

theorem infix_of_childAt? {before : Option Char} {found : Found (List Char)}
    (h : childAt? parent before text = some found) : parent <:+: text := by
  unfold childAt? at h
  split at h
  · cases h
  · next declared hdeclared =>
      split at h
      · cases h
      · next length hlength =>
          have hclause : parent <:+: text.drop declared.length := infix_of_clause? hlength
          exact hclause.trans (List.drop_suffix _ _).isInfix

/-- The parent of a declared subclass stands in the text. -/
theorem infix_of_mem_children {text parent name : String} (h : name ∈ children text parent) :
    parent.toList <:+: text.toList := by
  rw [children, List.mem_map] at h
  obtain ⟨value, hmatch, -⟩ := h
  obtain ⟨lead, here, found, hcut, hrule, -⟩ := exists_of_mem_allMatches hmatch
  have hhere : parent.toList <:+: here := infix_of_childAt? hrule
  rw [hcut]
  exact hhere.trans (List.suffix_append lead here).isInfix

end Extension

/-! ## Lists of bases -/

namespace BaseList

variable {entry bases parent : List Char}

/-- The last component of an entry is a part of it, wherever its subscript starts. -/
theorem infix_of_base? (h : base? entry = some parent) : parent <:+: entry := by
  unfold base? at h
  dsimp only at h
  split at h
  · cases h
  · obtain rfl := Option.some.inj h
    have hlast : ∀ path : List Char, (path.reverse.takeWhile (· ≠ '.')).reverse <:+ path := by
      intro path
      rw [← List.reverse_prefix, List.reverse_reverse]
      exact List.takeWhile_prefix _
    have hentry : Text.strip entry <:+: entry := Text.trim_infix _ entry
    exact (hlast _).isInfix.trans ((List.takeWhile_prefix _).isInfix.trans hentry)

theorem infix_of_names (h : names bases parent = true) : parent <:+: bases := by
  rw [names, List.any_eq_true] at h
  obtain ⟨entry, hentry, hbase⟩ := h
  have hparent : parent <:+: entry := infix_of_base? (by simpa using hbase)
  exact hparent.trans (Text.infix_of_mem_fields hentry)

theorem infix_of_list? {found : Found (List Char)} (h : list? text = some found) :
    found.value <:+: text := by
  have hpast : pastGap text <:+ text := List.dropWhile_suffix _
  unfold list? at h
  split at h
  · next rest hrest =>
      dsimp only at h
      split at h
      · cases h
      · cases h
        have hinner : rest.takeWhile (· ≠ ')') <+: rest := List.takeWhile_prefix _
        have hopened : rest <:+ pastGap text := by
          rw [hrest]
          exact List.suffix_cons '(' rest
        exact hinner.isInfix.trans (hopened.trans hpast).isInfix
  · cases h

theorem infix_of_headerAt? {before : Option Char} {found : Found (List Char × List Char)}
    (h : headerAt? before text = some found) : found.value.2 <:+: text := by
  unfold headerAt? at h
  split at h
  · dsimp only at h
    split at h
    · cases h
    · split at h
      · cases h
      · next list hlist =>
          cases h
          exact (infix_of_list? hlist).trans (List.drop_suffix _ _).isInfix
  · cases h

/-- The parent that a list of bases names stands in the text. -/
theorem infix_of_mem_children {text parent name : String} (h : name ∈ children text parent) :
    parent.toList <:+: text.toList := by
  rw [children, List.mem_filterMap] at h
  obtain ⟨header, hmatch, hname⟩ := h
  obtain ⟨lead, here, found, hcut, hrule, rfl⟩ := exists_of_mem_allMatches hmatch
  rw [Option.ite_none_right_eq_some] at hname
  have hparent : parent.toList <:+: found.value.2 := infix_of_names hname.1
  have hhere : found.value.2 <:+: here := infix_of_headerAt? hrule
  rw [hcut]
  exact (hparent.trans hhere).trans (List.suffix_append lead here).isInfix

end BaseList

end Lexical

/-! ## Rules -/

namespace ChildRule

theorem mentions_iff {text name : String} :
    mentions text name = true ↔ name.toList <:+: text.toList :=
  Text.occurs_iff

/-- A text in which a child of the parent is found by inheritance mentions the parent. -/
theorem mentions_of_inherits {path : Path} {text parent name : String}
    (h : name ∈ inheritance.nominate path text parent) : mentions text parent = true := by
  rw [mentions_iff]
  unfold nominate at h
  rcases List.mem_append.mp h with hextends | hbases
  · exact Lexical.Extension.infix_of_mem_children hextends
  · split at hbases
    · exact Lexical.BaseList.infix_of_mem_children hbases
    · cases hbases

end ChildRule

end Lineage
