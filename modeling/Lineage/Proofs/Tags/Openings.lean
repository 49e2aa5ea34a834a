import Lineage.Proofs.Lexical.Declared
import Lineage.Proofs.Lexical.Scans
import Lineage.Proofs.Store.Spelling
import Lineage.Proofs.Tags.Names

/-!
# Where a text opens tags

Markup is scanned line by line, and on each line for one tag after the other.  Neither is needed to
say where a tag is opened: the opener stands at a position of the text, and an identifier follows.

The scan of a line passes over nothing.  A tag starts with an angle bracket and has no other, in a
prefix without any, so no tag is opened inside of another.  Nor does it matter that the text is cut
into lines, as no tag goes on behind the end of a line.  A cut after a line feed leaves everything
alone that a usage tells of a position: the identifier, the number of the line and the line itself.

## Main results

* `Lexical.Tag.identAt?_eq`: a tag is found where one is opened.
* `Lexical.Tag.idents_eq_map_identFrom`: the scan of a line passes over nothing.
* `TagUsage.onMarkupLine_eq_openedFrom`: a line in a text has the tags that it has by itself.
* `TagUsage.inMarkup_eq_map_openedAt`: the usages in a text are those at the positions where it
  opens tags.
-/

namespace Lineage

namespace Lexical.Tag

variable {tagPrefix : String} {text : List Char} {start : Nat}

/-! ## Positions at which a tag is opened -/

/-- The longest identifier behind an opener at the position. -/
def identFrom (tagPrefix : String) (text : List Char) (start : Nat) : List Char :=
  (text.drop (start + (opener tagPrefix).toList.length)).takeWhile isIdent

/-- The opener stands at the position, and at least one character of an identifier behind it. -/
def OpensAt (tagPrefix : String) (text : List Char) (start : Nat) : Prop :=
  (opener tagPrefix).toList <+: text.drop start ∧ identFrom tagPrefix text start ≠ []

instance (tagPrefix : String) (text : List Char) (start : Nat) :
    Decidable (OpensAt tagPrefix text start) := inferInstanceAs (Decidable (_ ∧ _))

theorem toList_opener (tagPrefix : String) :
    (opener tagPrefix).toList = '<' :: (tagPrefix.toList ++ ['-']) := by
  simp [opener]

/-- A tag is found where one is opened. -/
theorem identAt?_eq (tagPrefix : String) (before : Option Char) (text : List Char) (start : Nat) :
    identAt? (opener tagPrefix).toList before (text.drop start) =
      if OpensAt tagPrefix text start then
        some ⟨identFrom tagPrefix text start,
          (opener tagPrefix).toList.length + (identFrom tagPrefix text start).length⟩
      else none := by
  rw [identAt?]
  cases hafter : Text.after? (opener tagPrefix).toList (text.drop start) with
  | none =>
      have hnot : ¬ OpensAt tagPrefix text start := by
        intro hopens
        obtain ⟨rest, hrest⟩ := hopens.1
        rw [← hrest, Text.after?_append] at hafter
        cases hafter
      rw [if_neg hnot]
  | some rest =>
      rw [Text.after?_eq_some_iff] at hafter
      have hrest : text.drop (start + (opener tagPrefix).toList.length) = rest := by
        rw [← List.drop_drop, hafter, List.drop_left]
      have hident : rest.takeWhile isIdent = identFrom tagPrefix text start := by
        rw [identFrom, hrest]
      have hopens : OpensAt tagPrefix text start ↔ identFrom tagPrefix text start ≠ [] :=
        and_iff_right ⟨rest, hafter.symm⟩
      simp only [hident, hopens, List.isEmpty_iff]
      exact (ite_not _ _ _).symm

theorem OpensAt.head?_eq (h : OpensAt tagPrefix text start) :
    (text.drop start).head? = some '<' := by
  obtain ⟨rest, hrest⟩ := h.1
  rw [← hrest, toList_opener]
  rfl

/-- What stands from the position on is a bracket, the rest of the tag and whatever follows it. -/
theorem OpensAt.exists_rest (h : OpensAt tagPrefix text start) :
    ∃ rest, text.drop start =
      '<' :: (tagPrefix.toList ++ '-' :: identFrom tagPrefix text start) ++ rest := by
  obtain ⟨rest, hrest⟩ := h.1
  have hident : identFrom tagPrefix text start = rest.takeWhile isIdent := by
    rw [identFrom, ← List.drop_drop, ← hrest, List.drop_left]
  use rest.dropWhile isIdent
  rw [← hrest, hident, toList_opener]
  simp

/-- Where there is no opening bracket, no tag is opened. -/
theorem identAt?_eq_none {before : Option Char} (h : text.head? ≠ some '<') :
    identAt? (opener tagPrefix).toList before text = none := by
  have hnot : ¬ OpensAt tagPrefix text 0 := fun hopens => h hopens.head?_eq
  have hrule := identAt?_eq tagPrefix before text 0
  rwa [if_neg hnot] at hrule

/-- Behind its first character a tag has no opening bracket. -/
theorem bracket_not_mem (hopen : '<' ∉ tagPrefix.toList) (text : List Char) (start : Nat) :
    '<' ∉ tagPrefix.toList ++ '-' :: identFrom tagPrefix text start := by
  have hident : '<' ∉ identFrom tagPrefix text start := by
    intro hmem
    have hbracket : isIdent '<' = true := List.all_eq_true.mp List.all_takeWhile '<' hmem
    revert hbracket
    decide
  simp [hopen, hident]

/-- No tag is opened inside of another. -/
theorem apart_identAt? (hopen : '<' ∉ tagPrefix.toList) (text : List Char) :
    Apart (identAt? (opener tagPrefix).toList) text := by
  apply apart_of_rule
  intro before more here found hne hlength hfound
  have hrule := identAt?_eq tagPrefix before (more ++ here) 0
  rw [List.drop_zero, hfound] at hrule
  split at hrule
  · next hopens =>
      obtain ⟨rest, hrest⟩ := hopens.exists_rest
      have hbracket := bracket_not_mem hopen (more ++ here) 0
      generalize hident : identFrom tagPrefix (more ++ here) 0 = ident at hrule hrest hbracket
      obtain ⟨c, more, rfl⟩ := List.exists_cons_of_ne_nil hne
      rw [List.drop_zero, List.cons_append, List.cons_append, List.cons.injEq] at hrest
      cases hrule
      have hshort : more.length < (tagPrefix.toList ++ '-' :: ident).length := by
        simp [toList_opener] at hlength
        simp
        omega
      -- What is left of the tag at the position inside of it starts with some other character.
      rcases List.append_eq_append_iff.mp hrest.2 with ⟨left, hbody, hhere⟩ | ⟨excess, hmore, -⟩
      · apply identAt?_eq_none
        intro hhead
        have hleft : left ≠ [] := by
          rintro rfl
          simp [hbody] at hshort
        rw [hhere, List.head?_append_of_ne_nil _ hleft] at hhead
        apply hbracket
        rw [hbody]
        exact List.mem_append_right _ (List.mem_of_mem_head? hhead)
      · rw [hmore, List.length_append] at hshort
        omega
  · cases hrule

/-- The identifiers on a line are those at the positions where it opens tags. -/
theorem idents_eq_map_identFrom (hopen : '<' ∉ tagPrefix.toList) (line : String) :
    idents line tagPrefix = ((List.range line.toList.length).filter
      (OpensAt tagPrefix line.toList ·)).map
        fun start => String.ofList (identFrom tagPrefix line.toList start) := by
  rw [idents, allMatches_eq_map_spots (apart_identAt? hopen line.toList), spots,
    spotsFrom_eq_filterMap, List.map_filterMap, List.map_filterMap, ← List.filterMap_eq_map,
    List.filterMap_filter]
  apply List.filterMap_congr
  intro start _
  rw [identAt?_eq]
  by_cases hopens : OpensAt tagPrefix line.toList start <;> simp [hopens]

end Lexical.Tag

namespace TagUsage

open Lexical Tag

variable {tagPrefix : String} {lead line tail : List Char} {start : Nat}

/-! ## Lines in a text -/

/-- The characters of the line that the position is on. -/
def lineAround (text : List Char) (start : Nat) : List Char :=
  ((text.take start).reverse.takeWhile (· ≠ '\n')).reverse ++
    (text.drop start).takeWhile (· ≠ '\n')

/-- The usage of the tag that is opened at the position. -/
def openedAt (tagPrefix : String) (file : Option Path) (text : List Char) (start : Nat) :
    TagUsage :=
  ⟨format tagPrefix (String.ofList (identFrom tagPrefix text start)),
    1 + (text.take start).count '\n', Text.stripped (String.ofList (lineAround text start)), file⟩

/-- A line that goes up to here ends: the text is over or goes on with a line feed. -/
def EndsLine (tail : List Char) : Prop := ∀ c ∈ tail.head?, c = '\n'

theorem takeWhile_append_of_endsLine {p : Char → Bool} (hfeed : p '\n' = false)
    (htail : EndsLine tail) (run : List Char) : (run ++ tail).takeWhile p = run.takeWhile p := by
  have hnone : tail.takeWhile p = [] := by
    cases tail with
    | nil => rfl
    | cons c tail =>
        have hc : c = '\n' := htail c rfl
        rw [hc]
        exact List.takeWhile_cons_of_neg (by simp [hfeed])
  rw [List.takeWhile_append, hnone]
  split
  · next hlength =>
      rw [List.append_nil]
      exact (List.takeWhile_prefix p).eq_of_length hlength |>.symm
  · rfl

theorem takeWhile_eq_self_of_not_mem (hline : '\n' ∉ line) :
    line.takeWhile (· ≠ '\n') = line := by
  rw [List.takeWhile_eq_self_iff]
  intro c hc
  exact decide_eq_true fun hfeed => hline (hfeed ▸ hc)

section

variable (hlead : EndsLine lead.reverse) (hline : '\n' ∉ line) (htail : EndsLine tail)

theorem drop_whole (hstart : start ≤ line.length) :
    (lead ++ (line ++ tail)).drop (lead.length + start) = line.drop start ++ tail := by
  rw [List.drop_length_add_append, List.drop_append_of_le_length hstart]

theorem take_whole (hstart : start ≤ line.length) :
    (lead ++ (line ++ tail)).take (lead.length + start) = lead ++ line.take start := by
  rw [List.take_length_add_append, List.take_append_of_le_length hstart]

include hlead hline htail in
theorem lineAround_whole (hstart : start ≤ line.length) :
    lineAround (lead ++ (line ++ tail)) (lead.length + start) = line := by
  have hahead : '\n' ∉ (line.take start).reverse := by
    intro hmem
    exact hline (List.mem_of_mem_take (List.mem_reverse.mp hmem))
  have hbehind : '\n' ∉ line.drop start := fun hmem => hline (List.mem_of_mem_drop hmem)
  rw [lineAround, take_whole hstart, drop_whole hstart, List.reverse_append,
    takeWhile_append_of_endsLine (by simp) hlead, takeWhile_append_of_endsLine (by simp) htail,
    takeWhile_eq_self_of_not_mem hahead, takeWhile_eq_self_of_not_mem hbehind,
    List.reverse_reverse, List.take_append_drop]

include htail in
theorem identFrom_whole (hopens : (opener tagPrefix).toList <+: line.drop start)
    (hstart : start ≤ line.length) :
    identFrom tagPrefix (lead ++ (line ++ tail)) (lead.length + start) =
      identFrom tagPrefix line start := by
  have hlength : start + (opener tagPrefix).toList.length ≤ line.length := by
    have hle := hopens.length_le
    rw [List.length_drop] at hle
    omega
  rw [identFrom, identFrom, Nat.add_assoc, drop_whole hlength,
    takeWhile_append_of_endsLine (by decide) htail]

include htail in
/-- No opener goes on behind the end of a line. -/
theorem prefix_whole_iff {part : List Char} (hfeed : '\n' ∉ part) (here : List Char) :
    part <+: here ++ tail ↔ part <+: here := by
  constructor
  · rintro ⟨rest, hrest⟩
    rcases List.append_eq_append_iff.mp hrest with ⟨left, hhere, -⟩ | ⟨excess, hexcess, hrest⟩
    · exact ⟨left, hhere.symm⟩
    · cases excess with
      | nil => simp [hexcess]
      | cons c excess =>
          have hc : c = '\n' := htail c (by simp [hrest])
          simp [hexcess, hc] at hfeed
  · intro hhere
    exact hhere.trans (List.prefix_append here tail)

include htail in
theorem opensAt_whole_iff (hfeed : '\n' ∉ tagPrefix.toList) (hstart : start ≤ line.length) :
    OpensAt tagPrefix (lead ++ (line ++ tail)) (lead.length + start) ↔
      OpensAt tagPrefix line start := by
  have hopener : '\n' ∉ (opener tagPrefix).toList := by simp [toList_opener, hfeed]
  unfold OpensAt
  rw [drop_whole hstart, prefix_whole_iff htail hopener]
  apply and_congr_right
  intro hopens
  rw [identFrom_whole htail hopens hstart]

include hlead hline htail in
theorem openedAt_whole (file : Option Path) (hopens : OpensAt tagPrefix line start)
    (hstart : start ≤ line.length) :
    openedAt tagPrefix file (lead ++ (line ++ tail)) (lead.length + start) =
      ⟨format tagPrefix (String.ofList (identFrom tagPrefix line start)),
        1 + lead.count '\n', Text.stripped (String.ofList line), file⟩ := by
  have hnone : (line.take start).count '\n' = 0 :=
    List.count_eq_zero.mpr fun hmem => hline (List.mem_of_mem_take hmem)
  rw [openedAt, identFrom_whole htail hopens.1 hstart, take_whole hstart, List.count_append, hnone,
    lineAround_whole hlead hline htail hstart, Nat.add_zero]

/-! ## Usages in a text -/

/-- The usages of the tags that a text opens at so many positions from the given one on. -/
def openedFrom (tagPrefix : String) (file : Option Path) (text : List Char) (start length : Nat) :
    List TagUsage :=
  ((List.range' start length).filter (OpensAt tagPrefix text ·)).map
    (openedAt tagPrefix file text)

theorem openedFrom_add (tagPrefix : String) (file : Option Path) (text : List Char)
    (start length more : Nat) :
    openedFrom tagPrefix file text start (length + more) =
      openedFrom tagPrefix file text start length ++
        openedFrom tagPrefix file text (start + length) more := by
  unfold openedFrom
  rw [← List.range'_append_1, List.filter_append, List.map_append]

include hlead hline htail in
/-- A line in a text has the tags that it has by itself. -/
theorem onMarkupLine_eq_openedFrom (hopen : '<' ∉ tagPrefix.toList)
    (hfeed : '\n' ∉ tagPrefix.toList) (file : Option Path) :
    onMarkupLine tagPrefix file (1 + lead.count '\n') (String.ofList line) =
      openedFrom tagPrefix file (lead ++ (line ++ tail)) lead.length line.length := by
  have hsame : (List.range line.length).filter (OpensAt tagPrefix line ·) =
      (List.range line.length).filter
        ((OpensAt tagPrefix (lead ++ (line ++ tail)) ·) ∘ (lead.length + ·)) := by
    apply List.filter_congr
    intro start hstart
    have hle : start ≤ line.length := by
      rw [List.mem_range] at hstart
      omega
    simp [opensAt_whole_iff htail hfeed hle]
  rw [onMarkupLine, findAll, idents_eq_map_identFrom hopen, String.toList_ofList, List.map_map,
    List.map_map, openedFrom, List.range'_eq_map_range, List.filter_map, List.map_map, ← hsame]
  apply List.map_congr_left
  intro start hstart
  rw [List.mem_filter, List.mem_range, decide_eq_true_eq] at hstart
  simp [openedAt_whole hlead hline htail file hstart.2 hstart.1.le]

end

/-- At a line feed no tag is opened. -/
theorem openedFrom_lineFeed (tagPrefix : String) (file : Option Path) (lead tail : List Char) :
    openedFrom tagPrefix file (lead ++ '\n' :: tail) lead.length 1 = [] := by
  have hnot : ¬ OpensAt tagPrefix (lead ++ '\n' :: tail) lead.length := by
    intro hopens
    have hhead := hopens.head?_eq
    simp at hhead
  simp [openedFrom, hnot]

/-- The lines from some position on have the tags that are opened from there on. -/
theorem flatMap_onMarkupLine_eq_openedFrom (hopen : '<' ∉ tagPrefix.toList)
    (hfeed : '\n' ∉ tagPrefix.toList) (file : Option Path) {parts : List (List Char)}
    (hparts : ∀ part ∈ parts, '\n' ∉ part) (hlead : EndsLine lead.reverse) :
    ((parts.zipIdx (1 + lead.count '\n')).flatMap fun numbered =>
        onMarkupLine tagPrefix file numbered.2 (String.ofList numbered.1)) =
      openedFrom tagPrefix file (lead ++ Text.joinWith '\n' parts) lead.length
        (Text.joinWith '\n' parts).length := by
  induction parts generalizing lead with
  | nil => rfl
  | cons part parts ih =>
      have hpart := hparts part List.mem_cons_self
      rw [List.zipIdx_cons, List.flatMap_cons]
      cases parts with
      | nil =>
          have hend : EndsLine [] := by simp [EndsLine]
          have hline := onMarkupLine_eq_openedFrom hlead hpart hend hopen hfeed file
          rw [List.append_nil] at hline
          simp [Text.joinWith, hline]
      | cons next others =>
          have hothers := fun other hother => hparts other (List.mem_cons_of_mem part hother)
          have hnext : EndsLine (lead ++ part ++ ['\n']).reverse := by simp [EndsLine]
          have hrest := ih hothers hnext
          rw [Text.joinWith]
          generalize Text.joinWith '\n' (next :: others) = rest at hrest ⊢
          have hend : EndsLine ('\n' :: rest) := by simp [EndsLine]
          have hline := onMarkupLine_eq_openedFrom hlead hpart hend hopen hfeed file
          have hnone := openedFrom_lineFeed tagPrefix file (lead ++ part) rest
          have hcount : (lead ++ part ++ ['\n']).count '\n' = lead.count '\n' + 1 := by
            simp [List.count_eq_zero.mpr hpart]
          have hlength : (part ++ '\n' :: rest).length = part.length + (1 + rest.length) := by
            simp
            omega
          -- The positions of the line, the one of its line feed and those of the other lines.
          rw [hlength, openedFrom_add, openedFrom_add, ← hline]
          rw [hcount] at hrest
          simp only [List.append_assoc, List.length_append, List.length_singleton,
            List.singleton_append] at hrest hnone
          rw [hnone, List.nil_append, Nat.add_assoc lead.length, ← hrest, Nat.add_assoc 1]

/-- The usages in a text are those of the tags that it opens, in the order of their positions.  The
prefixes that can be configured have neither a bracket nor a line feed. -/
theorem inMarkup_eq_map_openedAt :
    (∀ tagPrefix, Cli.Running.isTagPrefix tagPrefix = true →
      '<' ∉ tagPrefix.toList ∧ '\n' ∉ tagPrefix.toList) ∧
    ∀ text tagPrefix file, '<' ∉ tagPrefix.toList → '\n' ∉ tagPrefix.toList →
      inMarkup text tagPrefix file =
        ((List.range text.toList.length).filter (OpensAt tagPrefix text.toList ·)).map
          (openedAt tagPrefix file text.toList) := by
  constructor
  · intro tagPrefix haccepted
    have hplain := Cli.Running.isPlainPrefix_of_isTagPrefix haccepted
    constructor
    · intro hmem
      have hident := (hplain _ hmem).1
      revert hident
      decide
    · intro hmem
      have hident := (hplain _ hmem).1
      revert hident
      decide
  · intro text tagPrefix file hopen hfeed
    have hstart : EndsLine [].reverse := by simp [EndsLine]
    have hparts : ∀ part ∈ Text.lines text.toList, '\n' ∉ part :=
      fun part hpart => Text.separator_not_mem_of_mem_fields hpart
    have hlines := flatMap_onMarkupLine_eq_openedFrom hopen hfeed file hparts hstart
    have hwhole : Text.joinWith '\n' (Text.lines text.toList) = text.toList :=
      Text.joinWith_fields '\n' text.toList
    rw [hwhole, List.nil_append] at hlines
    rw [inMarkup, numberedLines, List.flatMap_map, List.range_eq_range']
    exact hlines

/-- An opener without an identifier, a tag right behind another one, and one on the third line. -/
theorem inMarkup_eq_map_openedAt_c :
    Cli.Running.isTagPrefix "c" = true ∧ ('<' ∉ "c".toList ∧ '\n' ∉ "c".toList) ∧
      inMarkup "<c- <c-a--b<c-x_1>\n\n  <c-card> " "c" none =
        [⟨"<c-a--b>", 1, "<c- <c-a--b<c-x_1>", none⟩, ⟨"<c-x_1>", 1, "<c- <c-a--b<c-x_1>", none⟩,
          ⟨"<c-card>", 3, "<c-card>", none⟩] := by
  have haccepted : Cli.Running.isTagPrefix "c" = true := by decide
  have hplain := inMarkup_eq_map_openedAt.1 "c" haccepted
  refine ⟨haccepted, hplain, ?_⟩
  rw [inMarkup_eq_map_openedAt.2 _ "c" none hplain.1 hplain.2]
  decide +kernel

end TagUsage

end Lineage
