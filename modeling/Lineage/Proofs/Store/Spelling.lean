import Lineage.Path

/-!
# Paths and how they are written

A path is written as its anchor and its names with slashes between them, and reading the text gives
the path back.  This needs names that are told apart by slashes: none that has a slash, and none of
the two that count for nothing.  Reading a text never gives any other, so two paths that were read
from texts are the same as soon as they are written the same.

## Main results

* `Path.isProper_ofString`: reading gives proper names only.
* `Path.ofString_toString`: what is written can be read back.
-/

namespace Lineage

namespace Path

variable {path other : Path}

/-- Every name of the path counts and has no slash. -/
def IsProper (path : Path) : Prop :=
  ∀ name ∈ path.names, isProperName name.toList = true ∧ '/' ∉ name.toList

instance (path : Path) : Decidable path.IsProper := inferInstanceAs (Decidable (∀ _ ∈ _, _))

theorem isProper_ofString (text : String) : (ofString text).IsProper := by
  intro name hname
  obtain ⟨chars, hchars, rfl⟩ := List.mem_map.mp hname
  obtain ⟨hfield, hproper⟩ := List.mem_filter.mp hchars
  rw [String.toList_ofList]
  exact ⟨hproper, Text.separator_not_mem_of_mem_fields hfield⟩

/-- The characters of a path that has names. -/
theorem toList_toString (hnames : path.names ≠ []) :
    path.toString.toList =
      path.anchor.text.toList ++ ['/'].intercalate (path.names.map String.toList) := by
  obtain ⟨anchor, names⟩ := path
  obtain ⟨name, others, rfl⟩ := List.exists_cons_of_ne_nil hnames
  have hwritten : toString ⟨anchor, name :: others⟩ =
      anchor.text ++ "/".intercalate (name :: others) := by
    cases anchor <;> rfl
  rw [hwritten, String.toList_append, String.toList_intercalate]
  rfl

/-- The first name starts with something other than a slash, so the anchor is what stands before. -/
theorem exists_cons_of_isProper (hproper : path.IsProper) (hnames : path.names ≠ []) :
    ∃ c rest, ['/'].intercalate (path.names.map String.toList) = c :: rest ∧ c ≠ '/' := by
  obtain ⟨name, names, heq⟩ := List.exists_cons_of_ne_nil hnames
  obtain ⟨hcounts, hslash⟩ := hproper name (by rw [heq]; exact List.mem_cons_self)
  obtain ⟨c, chars, hchars⟩ : ∃ c chars, name.toList = c :: chars := by
    cases hname : name.toList with
    | nil =>
        rw [hname] at hcounts
        cases hcounts
    | cons c chars => exact ⟨c, chars, rfl⟩
  rw [hchars] at hslash
  have hfirst : c ≠ '/' := fun h => hslash (h ▸ List.mem_cons_self)
  rw [heq, List.map_cons, hchars]
  cases names.map String.toList with
  | nil => exact ⟨c, chars, List.intercalate_singleton, hfirst⟩
  | cons next others =>
      rw [List.intercalate_cons_cons, List.cons_append, List.cons_append]
      exact ⟨c, _, rfl, hfirst⟩

theorem anchorOf_append (anchor : Anchor) {c : Char} (hfirst : c ≠ '/') (rest : List Char) :
    anchorOf (anchor.text.toList ++ c :: rest) = anchor := by
  cases anchor with
  | relative => simp [Anchor.text, anchorOf, hfirst]
  | root => simp [Anchor.text, anchorOf, hfirst]
  | doubleRoot => simp [Anchor.text, anchorOf, hfirst]

/-- The slashes of an anchor are no names. -/
theorem filter_fields_append (anchor : Anchor) (text : List Char) :
    (Text.fields '/' (anchor.text.toList ++ text)).filter isProperName =
      (Text.fields '/' text).filter isProperName := by
  have hslash (text : List Char) :
      (Text.fields '/' ('/' :: text)).filter isProperName =
        (Text.fields '/' text).filter isProperName := by
    have hempty := Text.fields_append_separator (List.not_mem_nil (a := '/')) text
    rw [List.nil_append] at hempty
    rw [hempty]
    exact List.filter_cons_of_neg (by decide)
  cases anchor with
  | relative => rfl
  | root => exact hslash text
  | doubleRoot => exact (hslash ('/' :: text)).trans (hslash text)

theorem ofString_toString (hproper : path.IsProper) : ofString path.toString = path := by
  obtain ⟨anchor, names⟩ := path
  by_cases hnames : names = []
  · subst hnames
    cases anchor <;> decide
  · have hslashes : ∀ part ∈ names.map String.toList, '/' ∉ part := by
      intro part hpart
      obtain ⟨name, hname, rfl⟩ := List.mem_map.mp hpart
      exact (hproper name hname).2
    have hcount : ∀ part ∈ names.map String.toList, isProperName part = true := by
      intro part hpart
      obtain ⟨name, hname, rfl⟩ := List.mem_map.mp hpart
      exact (hproper name hname).1
    have hparts : names.map String.toList ≠ [] := fun h => hnames (List.map_eq_nil_iff.mp h)
    have hchars : (toString ⟨anchor, names⟩).toList =
        anchor.text.toList ++ ['/'].intercalate (names.map String.toList) :=
      toList_toString hnames
    obtain ⟨c, rest, hjoined, hfirst⟩ := exists_cons_of_isProper hproper hnames
    have hanchor : anchorOf (toString ⟨anchor, names⟩).toList = anchor := by
      rw [hchars, hjoined]
      exact anchorOf_append anchor hfirst rest
    have hkept : (Text.fields '/' (toString ⟨anchor, names⟩).toList).filter isProperName =
        names.map String.toList := by
      rw [hchars, filter_fields_append, Text.fields_intercalate hparts hslashes,
        List.filter_eq_self.mpr hcount]
    rw [ofString, hanchor, hkept, List.map_map]
    simp

/-- Proper paths that are written the same are the same. -/
theorem eq_of_toString_eq (hproper : path.IsProper) (hother : other.IsProper)
    (h : path.toString = other.toString) : path = other := by
  rw [← ofString_toString hproper, h, ofString_toString hother]

/-- The last names of a path stand at the end of its text, behind a slash unless nothing stands
before them. -/
theorem toString_append (anchor : Anchor) (front : List String) {names : List String}
    (hnames : names ≠ []) :
    toString ⟨anchor, front ++ names⟩ = "/".intercalate names ∨
      ∃ lead, toString ⟨anchor, front ++ names⟩ = lead ++ "/" ++ "/".intercalate names := by
  have hwritten : toString ⟨anchor, front ++ names⟩ =
      anchor.text ++ "/".intercalate (front ++ names) := by
    obtain ⟨name, others, hall⟩ :=
      List.exists_cons_of_ne_nil (List.append_ne_nil_of_right_ne_nil front hnames)
    rw [hall]
    cases anchor <;> rfl
  rw [hwritten]
  by_cases hfront : front = []
  · subst hfront
    rw [List.nil_append]
    cases anchor with
    | relative => exact .inl (String.empty_append)
    | root => exact .inr ⟨"", rfl⟩
    | doubleRoot => exact .inr ⟨"/", rfl⟩
  · right
    refine ⟨anchor.text ++ "/".intercalate front, ?_⟩
    rw [String.intercalate_append_of_ne_nil hfront hnames]
    simp only [String.append_assoc]

end Path

end Lineage
