import Lineage.Cli.Run
import Lineage.Proofs.Lexical.Position

/-!
# Names of tags

A tag is written from a prefix and an identifier, and both ways of reading it back take angle
brackets off its ends: the name of a usage is what follows the first hyphen, and a text on the
command line is what follows the prefix and its hyphen, if it starts so.  A prefix that the
configuration accepts has no hyphen, so the first way gives back the identifier of every tag.  The
second gives back the identifier of a tag that is written in full, and takes a bare identifier as it
is unless it starts like a tag in full.

## Main results

* `Lexical.Tag.name_format`: the name of a tag is its identifier.
* `Lexical.Tag.isIdent_of_mem_idents`: the identifiers of the tags that a line opens.
* `Cli.Running.tagNameOf_of_not_prefix`, `tagNameOf_qualified`, `tagNameOf_format`: what a text on
  the command line stands for.
-/

namespace Lineage

/-- A bracket of a tag. -/
def Lexical.Tag.isBracket (c : Char) : Bool := c = '<' || c = '>'

namespace Lexical.Tag

/-! ## Characters of a tag -/

/-- The characters of identifiers are letters, digits, underscores and hyphens of ASCII. -/
private theorem toNat_of_isIdent {c : Char} (h : isIdent c = true) :
    (0x30 ≤ c.toNat ∧ c.toNat ≤ 0x39) ∨ (0x41 ≤ c.toNat ∧ c.toNat ≤ 0x5A) ∨
      (0x61 ≤ c.toNat ∧ c.toNat ≤ 0x7A) ∨ c.toNat = 0x5F ∨ c.toNat = 0x2D := by
  have hcodes : ((decide (c.val ≥ 'A'.val ∧ c.val ≤ 'Z'.val) ||
      (decide (c.val ≥ 'a'.val) && decide (c.val ≤ 'z'.val))) ||
      (decide (c.val ≥ '0'.val) && decide (c.val ≤ '9'.val)) || decide (c = '_') ||
      decide (c = '-')) = true := h
  simp only [Bool.or_eq_true, Bool.and_eq_true, decide_eq_true_eq, UInt32.le_iff_toNat_le,
    ge_iff_le] at hcodes
  rcases hcodes with (((h | h) | h) | rfl) | rfl
  · exact .inr (.inl h)
  · exact .inr (.inr (.inl h))
  · exact .inl h
  · exact .inr (.inr (.inr (.inl rfl)))
  · exact .inr (.inr (.inr (.inr rfl)))

/-- The characters of identifiers are in ASCII. -/
theorem toNat_lt_of_isIdent {c : Char} (h : isIdent c = true) : c.toNat < 0x80 := by
  have hcode := toNat_of_isIdent h
  omega

theorem isBracket_eq_false_of_isIdent {c : Char} (h : isIdent c = true) : isBracket c = false := by
  have hcode := toNat_of_isIdent h
  have hopen : c ≠ '<' := by
    rintro rfl
    revert hcode
    decide
  have hclose : c ≠ '>' := by
    rintro rfl
    revert hcode
    decide
  simp [isBracket, hopen, hclose]

theorem isBlank_eq_false_of_isIdent {c : Char} (h : isIdent c = true) :
    Unicode.isBlank c = false := by
  have hcode := toNat_of_isIdent h
  rw [Bool.eq_false_iff]
  intro hblank
  simp only [Unicode.isBlank, Bool.or_eq_true, Bool.and_eq_true, decide_eq_true_eq, beq_iff_eq]
    at hblank
  omega

/-! ## Tags as characters -/

/-- A prefix that can be told from the identifier after it. -/
def IsPlainPrefix (tagPrefix : String) : Prop :=
  ∀ c ∈ tagPrefix.toList, isIdent c = true ∧ c ≠ '-'

/-- The text is made of characters of identifiers. -/
def IsIdentText (text : String) : Prop := ∀ c ∈ text.toList, isIdent c = true

theorem toList_format (tagPrefix ident : String) :
    (format tagPrefix ident).toList =
      ['<'] ++ ((tagPrefix.toList ++ '-' :: ident.toList) ++ ['>']) := by
  simp [format]

/-- Within its brackets a tag has only characters of identifiers. -/
theorem isIdent_of_mem_inner {tagPrefix ident : String} (hplain : IsPlainPrefix tagPrefix)
    (hident : IsIdentText ident) : ∀ c ∈ tagPrefix.toList ++ '-' :: ident.toList,
      isIdent c = true := by
  intro c hc
  rcases List.mem_append.mp hc with hc | hc
  · exact (hplain c hc).1
  · rcases List.mem_cons.mp hc with rfl | hc
    · rfl
    · exact hident c hc

/-- Without its brackets a tag is the prefix, a hyphen and the identifier. -/
theorem trim_format {tagPrefix ident : String} (hplain : IsPlainPrefix tagPrefix)
    (hident : ∀ c ∈ ident.toList, isBracket c = false) :
    Text.trim isBracket (format tagPrefix ident).toList =
      tagPrefix.toList ++ '-' :: ident.toList := by
  rw [toList_format]
  refine Text.trim_append (by simp [isBracket]) ?_ (by simp [isBracket])
  intro c hc
  rcases List.mem_append.mp hc with hc | hc
  · exact isBracket_eq_false_of_isIdent (hplain c hc).1
  · rcases List.mem_cons.mp hc with rfl | hc
    · rfl
    · exact hident c hc

/-- What has no brackets in it is read back from a tag that is written from it. -/
theorem name_format_of_unbracketed {tagPrefix ident : String} (hplain : IsPlainPrefix tagPrefix)
    (hident : ∀ c ∈ ident.toList, isBracket c = false) : name (format tagPrefix ident) = ident := by
  have hbefore : ∀ c ∈ tagPrefix.toList, decide (c ≠ '-') = true := by
    intro c hc
    exact decide_eq_true (hplain c hc).2
  have hinner : Text.trim (fun c => c = '<' || c = '>') (format tagPrefix ident).toList =
      tagPrefix.toList ++ '-' :: ident.toList := trim_format hplain hident
  have hrest : (tagPrefix.toList ++ '-' :: ident.toList).dropWhile (· ≠ '-') =
      '-' :: ident.toList := by
    rw [List.dropWhile_append_of_pos hbefore, List.dropWhile_cons_of_neg (by simp)]
  rw [name, hinner, hrest]
  exact String.ofList_toList

theorem IsIdentText.unbracketed {text : String} (h : IsIdentText text) :
    ∀ c ∈ text.toList, isBracket c = false :=
  fun c hc => isBracket_eq_false_of_isIdent (h c hc)

/-- The name of a tag is its identifier. -/
theorem name_format {tagPrefix ident : String} (hplain : IsPlainPrefix tagPrefix)
    (hident : IsIdentText ident) : name (format tagPrefix ident) = ident :=
  name_format_of_unbracketed hplain hident.unbracketed

/-! ## Tags that a line opens -/

theorem isIdent_of_mem_idents {line tagPrefix ident : String} (h : ident ∈ idents line tagPrefix) :
    IsIdentText ident := by
  obtain ⟨chars, hchars, rfl⟩ := List.mem_map.mp h
  obtain ⟨lead, rest, found, -, hfound, rfl⟩ := exists_of_mem_allMatches hchars
  rw [identAt?] at hfound
  split at hfound
  · cases hfound
  · dsimp only at hfound
    split at hfound
    · cases hfound
    · cases hfound
      intro c hc
      rw [String.toList_ofList] at hc
      exact List.all_eq_true.mp List.all_takeWhile c hc

/-- A tag found on a line is written from an identifier, which is its name. -/
theorem isIdentText_name_of_mem_findAll {line tagPrefix tag : String}
    (hplain : IsPlainPrefix tagPrefix) (h : tag ∈ findAll line tagPrefix) :
    IsIdentText (name tag) := by
  obtain ⟨ident, hident, rfl⟩ := List.mem_map.mp h
  have htext := isIdent_of_mem_idents hident
  rwa [name_format hplain htext]

end Lexical.Tag

namespace Cli.Running

open Lexical.Tag

/-! ## Texts on the command line -/

theorem isPlainPrefix_of_isTagPrefix {tagPrefix : String} (h : isTagPrefix tagPrefix = true) :
    IsPlainPrefix tagPrefix := by
  rw [isTagPrefix] at h
  split at h
  · cases h
  · next c rest hchars =>
      rw [Bool.and_eq_true, List.all_eq_true] at h
      obtain ⟨hfirst, hrest⟩ := h
      have hcase : ∀ d : Char, (d.isAlphanum || d = '_') = true → isIdent d = true ∧ d ≠ '-' := by
        intro d hd
        refine ⟨by rw [isIdent, hd]; rfl, ?_⟩
        rintro rfl
        revert hd
        decide
      intro d hd
      rw [hchars] at hd
      rcases List.mem_cons.mp hd with rfl | hd
      · exact hcase d (by rw [Char.isAlphanum, hfirst]; rfl)
      · exact hcase d (hrest d hd)

/-- What a text without blanks stands for, in terms of the text within the brackets. -/
theorem tagNameOf_eq (tagPrefix : String) {text : String} {inner : List Char}
    (hblank : ∀ c ∈ text.toList, Unicode.isBlank c = false)
    (hinner : Text.trim isBracket text.toList = inner) :
    tagNameOf tagPrefix text =
      String.ofList ((Text.after? (tagPrefix ++ "-").toList inner).getD inner) := by
  have hstrip : Text.strip text.toList = text.toList := Text.trim_eq_self hblank
  rw [← hinner, tagNameOf, hstrip]
  rfl

theorem tagNameOf_ident (tagPrefix : String) {text : String} (htext : IsIdentText text) :
    tagNameOf tagPrefix text =
      String.ofList ((Text.after? (tagPrefix ++ "-").toList text.toList).getD text.toList) :=
  tagNameOf_eq tagPrefix (fun c hc => isBlank_eq_false_of_isIdent (htext c hc))
    (Text.trim_eq_self htext.unbracketed)

/-- An identifier that does not start with the prefix and a hyphen stands for itself. -/
theorem tagNameOf_of_not_prefix {tagPrefix ident : String} (hident : IsIdentText ident)
    (hfree : ¬ (tagPrefix ++ "-").toList <+: ident.toList) : tagNameOf tagPrefix ident = ident := by
  have hnone : Text.after? (tagPrefix ++ "-").toList ident.toList = none := by
    rw [Option.eq_none_iff_forall_not_mem]
    intro rest hrest
    exact hfree ⟨rest, (Text.after?_eq_some_iff.mp hrest).symm⟩
  rw [tagNameOf_ident tagPrefix hident, hnone]
  exact String.ofList_toList

/-- A prefix, a hyphen and an identifier stand for the identifier. -/
theorem tagNameOf_qualified {tagPrefix ident : String} (hplain : IsPlainPrefix tagPrefix)
    (hident : IsIdentText ident) : tagNameOf tagPrefix (tagPrefix ++ "-" ++ ident) = ident := by
  have hchars : (tagPrefix ++ "-" ++ ident).toList = (tagPrefix ++ "-").toList ++ ident.toList := by
    rw [String.toList_append]
  have hwhole : IsIdentText (tagPrefix ++ "-" ++ ident) := by
    intro c hc
    refine isIdent_of_mem_inner hplain hident c ?_
    simpa using hc
  rw [tagNameOf_ident tagPrefix hwhole, hchars, Text.after?_append]
  exact String.ofList_toList

/-- A tag in full stands for its identifier. -/
theorem tagNameOf_format {tagPrefix ident : String} (hplain : IsPlainPrefix tagPrefix)
    (hident : IsIdentText ident) : tagNameOf tagPrefix (format tagPrefix ident) = ident := by
  have hblank : ∀ c ∈ (format tagPrefix ident).toList, Unicode.isBlank c = false := by
    intro c hc
    rw [toList_format, List.mem_append, List.mem_append] at hc
    rcases hc with hc | hc | hc
    · rw [List.mem_singleton.mp hc]
      rfl
    · exact isBlank_eq_false_of_isIdent (isIdent_of_mem_inner hplain hident c hc)
    · rw [List.mem_singleton.mp hc]
      rfl
  have hchars : tagPrefix.toList ++ '-' :: ident.toList =
      (tagPrefix ++ "-").toList ++ ident.toList := by simp
  rw [tagNameOf_eq tagPrefix hblank (trim_format hplain hident.unbracketed), hchars,
    Text.after?_append]
  exact String.ofList_toList

end Cli.Running

end Lineage
