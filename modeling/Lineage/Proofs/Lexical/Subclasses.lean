import Lineage.Proofs.Lexical.Overlaps

/-!
# Subclasses that a text declares

The scan for subclasses of a parent reads a class name, the keyword `extends` and the parent's name,
all of them whole words with blanks between.  The law speaks of all places of a text where this
stands; the scan goes on behind each that it finds.  Both give the same names unless one declaration
starts inside of another.  It can start only at one of the words of the other, and then this word is
the keyword `class`.  If that is the name of the class, the words behind it are the keyword
`extends` twice over, the second time in the parent's place; and if it is the parent's name, there
is nothing more to ask for.  So the scan is complete for every parent other than these two words,
and for both of them there are texts of which it leaves something out.

## Main results

* `Extension.childAt?_eq_some_iff`: the rule for subclasses recognises their form and nothing else.
* `Extension.Shape.parent_of_inside`: which parents leave room for a declaration in a declaration.
* `Extension.children_lists_subclasses`: what the scan lists, what it leaves out, and for whom.
-/

namespace Lineage.Lexical.Extension

variable {before : Option Char} {text here more blanks name middle last parent rest : List Char}

/-! ## The form of a declaration -/

/-- A text goes on with the keyword `extends` and the parent's name, with blanks before each. -/
structure Clause (text middle last parent rest : List Char) : Prop where
  text_eq : text = middle ++ (keyword ++ (last ++ (parent ++ rest)))
  middle_ne_nil : middle ≠ []
  isBlank_middle : ∀ c ∈ middle, Unicode.isBlank c = true
  last_ne_nil : last ≠ []
  isBlank_last : ∀ c ∈ last, Unicode.isBlank c = true
  ends : isWordAt rest.head? = false

/-- Between the characters around it, a text has the shape of a declaration of `name` as a subclass
of `parent`. -/
structure Shape (before : Option Char) (text blanks name middle last parent rest : List Char) :
    Prop where
  declaration : Declaration.Shape before text blanks name
    (middle ++ (keyword ++ (last ++ (parent ++ rest))))
  clause : Clause (middle ++ (keyword ++ (last ++ (parent ++ rest)))) middle last parent rest

theorem isWord_of_mem_keyword : ∀ c ∈ keyword, Unicode.isWord c = true :=
  List.all_eq_true.mp (by decide)

section Parent

variable (hne : parent ≠ []) (hword : ∀ c ∈ parent, Unicode.isWord c = true)

include hne hword

theorem clause?_eq_some_iff {length : Nat} :
    clause? parent text = some length ↔
      ∃ middle last rest, Clause text middle last parent rest ∧
        length = middle.length + keyword.length + (last.length + parent.length) := by
  constructor
  · intro h
    unfold clause? at h
    dsimp only at h
    split at h
    · cases h
    · next hmiddle =>
        split at h
        · cases h
        · next after hafter =>
            split at h
            · cases h
            · next found hfound =>
                obtain ⟨last, rest, rfl, hlastNe, hlast, hends, rfl⟩ :=
                  (gapAndName?_eq_some_iff hne hword).mp hfound
                rw [Text.after?_eq_some_iff] at hafter
                have htext : text = gap text ++ (keyword ++ (last ++ (parent ++ rest))) := by
                  rw [← hafter, gap, pastGap, List.takeWhile_append_dropWhile]
                refine ⟨gap text, last, rest, ⟨htext, by simpa using hmiddle,
                  fun c hc => List.mem_takeWhile_imp hc, hlastNe, hlast, hends⟩, ?_⟩
                exact (Option.some.inj h).symm
  · rintro ⟨middle, last, rest, hclause, rfl⟩
    have hhead : (keyword ++ (last ++ (parent ++ rest))).head?.any Unicode.isBlank = false := rfl
    obtain ⟨hgap, hpast⟩ := takeWhile_run hclause.isBlank_middle hhead
    have hfound : gapAndName? parent (last ++ (parent ++ rest)) =
        some (last.length + parent.length) :=
      (gapAndName?_eq_some_iff hne hword).mpr ⟨last, rest, rfl, hclause.last_ne_nil,
        hclause.isBlank_last, hclause.ends, rfl⟩
    unfold clause? gap pastGap
    rw [hclause.text_eq, hgap, hpast, Text.after?_append]
    simp [hfound, hclause.middle_ne_nil]

theorem childAt?_eq_some_iff {found : Found (List Char)} :
    childAt? parent before text = some found ↔
      ∃ blanks middle last rest, Shape before text blanks found.value middle last parent rest ∧
        text.length = found.length + rest.length := by
  constructor
  · intro h
    unfold childAt? at h
    split at h
    · cases h
    · next declared hdeclared =>
        split at h
        · cases h
        · next length hlength =>
            cases h
            obtain ⟨blanks, tail, hshape, hcovered⟩ := Declaration.nameAt?_eq_some_iff.mp hdeclared
            rw [hcovered, Declaration.drop_of_shape hshape] at hlength
            obtain ⟨middle, last, rest, hclause, rfl⟩ :=
              (clause?_eq_some_iff hne hword).mp hlength
            obtain rfl := hclause.text_eq
            refine ⟨blanks, middle, last, rest, ⟨hshape, hclause⟩, ?_⟩
            rw [hshape.text_eq, hcovered]
            simp
            omega
  · rintro ⟨blanks, middle, last, rest, hshape, hlength⟩
    have hdeclared : Declaration.nameAt? before text = some ⟨found.value,
        Declaration.keyword.length + blanks.length + found.value.length⟩ :=
      Declaration.nameAt?_eq_some_iff.mpr ⟨blanks, _, hshape.declaration, rfl⟩
    have hclause := (clause?_eq_some_iff hne hword).mpr
      ⟨middle, last, rest, hshape.clause, rfl⟩
    have hcovered : found.length = Declaration.keyword.length + blanks.length +
        found.value.length + (middle.length + keyword.length + (last.length + parent.length)) := by
      rw [hshape.declaration.text_eq] at hlength
      simp at hlength ⊢
      omega
    unfold childAt?
    simp only [hdeclared, Declaration.drop_of_shape hshape.declaration, hclause]
    rw [← hcovered]

end Parent

theorem Shape.length_rest_lt (h : Shape before text blanks name middle last parent rest) :
    rest.length < text.length := by
  rw [h.declaration.text_eq]
  simp [Declaration.keyword]
  omega

/-! ## Declarations inside of declarations -/

/-- If a declaration of a subclass starts inside of another one, both of the same parent, it starts
at the class name or at the parent's name, and this leaves two words for the parent. -/
theorem Shape.parent_of_inside {innerBlanks innerName innerMiddle innerLast innerRest : List Char}
    (hparentNe : parent ≠ []) (hparent : ∀ c ∈ parent, Unicode.isWord c = true)
    (houter : Shape before (more ++ here) blanks name middle last parent rest) (hne : more ≠ [])
    (hlength : rest.length < here.length)
    (hinner : Shape (charBefore before more) here innerBlanks innerName innerMiddle innerLast parent
      innerRest) : parent = Declaration.keyword ∨ parent = keyword := by
  have hclass := hinner.declaration.text_eq
  have hkeyword (tail : List Char) : (keyword ++ tail).head?.any Unicode.isBlank = false := rfl
  -- The words of the outer declaration in turn: the keyword, the name, `extends` and the parent.
  obtain ⟨past, rfl, hpast, hstarts⟩ := exists_past_word houter.declaration.text_eq.symm hne
    Declaration.isWord_of_mem_keyword houter.declaration.isBlank hinner.declaration.startsWord
  by_cases hname : past = []
  · subst hname
    rw [List.nil_append, hclass] at hpast
    obtain ⟨-, hextends⟩ := word_gap_unique hpast houter.declaration.isWord
      Declaration.isWord_of_mem_keyword houter.clause.middle_ne_nil houter.clause.isBlank_middle
      hinner.declaration.blanks_ne_nil hinner.declaration.isBlank (hkeyword _)
      hinner.declaration.head?_isBlank
    obtain ⟨-, hlast⟩ := word_gap_unique hextends isWord_of_mem_keyword hinner.declaration.isWord
      houter.clause.last_ne_nil houter.clause.isBlank_last hinner.clause.middle_ne_nil
      hinner.clause.isBlank_middle (isBlank_head?_of_word hparentNe hparent rest) (hkeyword _)
    have hends := isWordAt_head?_of_blanks hinner.clause.last_ne_nil hinner.clause.isBlank_last
      (parent ++ innerRest)
    exact .inr (run_unique hlast hparent isWord_of_mem_keyword houter.clause.ends hends).1
  have hblanks := isWordAt_head?_of_blanks hinner.declaration.blanks_ne_nil
    hinner.declaration.isBlank (innerName ++
      (innerMiddle ++ (keyword ++ (innerLast ++ (parent ++ innerRest)))))
  obtain ⟨past, rfl, hpast, hstarts⟩ := exists_past_word hpast hname houter.declaration.isWord
    houter.clause.isBlank_middle hstarts
  by_cases hextends : past = []
  · subst hextends
    rw [List.nil_append, hclass] at hpast
    have hends := isWordAt_head?_of_blanks houter.clause.last_ne_nil houter.clause.isBlank_last
      (parent ++ rest)
    have hsame := (run_unique hpast isWord_of_mem_keyword Declaration.isWord_of_mem_keyword hends
      hblanks).1
    exact absurd hsame (by decide)
  obtain ⟨past, rfl, hpast, hstarts⟩ := exists_past_word hpast hextends isWord_of_mem_keyword
    houter.clause.isBlank_last hstarts
  by_cases hlast : past = []
  · subst hlast
    rw [List.nil_append, hclass] at hpast
    exact .inl (run_unique hpast hparent Declaration.isWord_of_mem_keyword houter.clause.ends
      hblanks).1
  obtain ⟨past, rfl, hrest⟩ := exists_past_end hpast hlast hparent hstarts
  rw [hrest, List.length_append] at hlength
  omega

/-! ## All places of a text -/

/-- A class name and a part of a text, given by the numbers of characters before its start and
before its end. -/
structure Span where
  name : String
  start : Nat
  stop : Nat
  deriving Repr, DecidableEq

/-- In this part the text declares a class of the name as a subclass of the parent. -/
def IsSubclass (text parent : String) (span : Span) : Prop :=
  ∃ lead here blanks middle last rest, text.toList = lead ++ here ∧
    Shape (charBefore none lead) here blanks span.name.toList middle last parent.toList rest ∧
    lead.length = span.start ∧ span.stop + rest.length = text.toList.length

/-- The part of a text that a match covers. -/
def spanOf (spot : Nat × Found (List Char)) : Span :=
  ⟨String.ofList spot.2.value, spot.1, spot.1 + spot.2.length⟩

/-- The names that the scan lists stand in these parts of the text: in this order, and each of them
declared there.  A declaration in another part starts inside of one of these. -/
structure ListedAt (text parent : String) (spans : List Span) : Prop where
  children_eq : children text parent = spans.map Span.name
  ordered : spans.Pairwise fun span next => span.start < next.start
  isSubclass : ∀ span ∈ spans, IsSubclass text parent span
  mem_or_inside : ∀ span, IsSubclass text parent span → span ∈ spans ∨
    ∃ earlier ∈ spans, earlier.start < span.start ∧ span.start < earlier.stop

section Listing

variable {text parent : String} (hne : parent ≠ "")
  (hword : ∀ c ∈ parent.toList, Unicode.isWord c = true)

include hne hword

theorem isSubclass_iff {span : Span} :
    IsSubclass text parent span ↔
      ∃ spot ∈ spots (childAt? parent.toList) text.toList, spanOf spot = span := by
  have hchars : parent.toList ≠ [] := by simpa [String.toList_eq_nil_iff] using hne
  constructor
  · rintro ⟨lead, here, blanks, middle, last, rest, hcut, hshape, hstart, hstop⟩
    have hless := hshape.length_rest_lt
    have hhere : here ≠ [] := List.ne_nil_of_length_pos (by omega)
    let found : Found (List Char) := ⟨span.name.toList, here.length - rest.length⟩
    have hfound : childAt? parent.toList (charBefore none lead) here = some found := by
      apply (childAt?_eq_some_iff hchars hword).mpr
      exact ⟨blanks, middle, last, rest, hshape, by simp [found]; omega⟩
    refine ⟨(lead.length, found), mem_spotsFrom_iff.mpr
      ⟨lead, here, hcut, hhere, (Nat.zero_add _).symm, hfound⟩, ?_⟩
    rw [hcut, List.length_append] at hstop
    obtain ⟨name, start, stop⟩ := span
    simp [spanOf, found] at hstart hstop ⊢
    omega
  · rintro ⟨spot, hspot, rfl⟩
    obtain ⟨lead, here, hcut, -, hstart, hfound⟩ := mem_spotsFrom_iff.mp hspot
    obtain ⟨blanks, middle, last, rest, hshape, hlength⟩ :=
      (childAt?_eq_some_iff hchars hword).mp hfound
    refine ⟨lead, here, blanks, middle, last, rest, hcut, ?_, by simp [spanOf, hstart], ?_⟩
    · simpa [spanOf] using hshape
    · rw [hcut, List.length_append, hlength]
      simp [spanOf, hstart]
      omega

theorem listedAt_taken :
    ListedAt text parent ((taken (childAt? parent.toList) text.toList).map spanOf) := by
  have hselects := selects_taken (childAt? parent.toList) text.toList
  constructor
  · rw [children, ← map_taken, List.map_map, List.map_map]
    rfl
  · rw [List.pairwise_map]
    exact (pairwise_spotsFrom _ 0 none text.toList).sublist hselects.sublist
  · intro span hspan
    obtain ⟨spot, hspot, rfl⟩ := List.mem_map.mp hspan
    exact (isSubclass_iff hne hword).mpr ⟨spot, hselects.sublist.subset hspot, rfl⟩
  · intro span hspan
    obtain ⟨spot, hspot, rfl⟩ := (isSubclass_iff hne hword).mp hspan
    rcases hselects.mem_or_inside spot hspot with htaken | ⟨other, hother, hinside⟩
    · exact .inl (List.mem_map_of_mem htaken)
    · exact .inr ⟨spanOf other, List.mem_map_of_mem hother, hinside⟩

/-- Unless the parent is one of the two keywords, nothing is left out. -/
theorem apart_of_parent (hclass : parent ≠ "class") (hextends : parent ≠ "extends") :
    Apart (childAt? parent.toList) text.toList := by
  have hchars : parent.toList ≠ [] := by simpa [String.toList_eq_nil_iff] using hne
  apply apart_of_rule
  intro before more here found hmore hlength houter
  rw [Option.eq_none_iff_forall_not_mem]
  intro inner hinner
  obtain ⟨blanks, middle, last, rest, houterShape, houterLength⟩ :=
    (childAt?_eq_some_iff hchars hword).mp houter
  obtain ⟨_, _, _, _, hinnerShape, -⟩ := (childAt?_eq_some_iff hchars hword).mp hinner
  rw [List.length_append] at houterLength
  rcases houterShape.parent_of_inside hchars hword hmore (by omega) hinnerShape with h | h
  · exact hclass (String.toList_inj.mp h)
  · exact hextends (String.toList_inj.mp h)

end Listing

theorem isBlank_of_mem_space : ∀ c ∈ [' '], Unicode.isBlank c = true :=
  List.all_eq_true.mp (by decide)

/-- The parent of one class is the keyword that declares another. -/
theorem isSubclass_of_class :
    IsSubclass "class A extends class B extends class" "class" ⟨"B", 16, 37⟩ := by
  have hspace := isBlank_of_mem_space
  have hname : ∀ c ∈ "B".toList, Unicode.isWord c = true := List.all_eq_true.mp (by decide)
  exact ⟨"class A extends ".toList, "class B extends class".toList, [' '], [' '], [' '], [], rfl,
    ⟨⟨rfl, by simp, hspace, by simp, hname, rfl, rfl⟩,
      ⟨rfl, by simp, hspace, by simp, hspace, rfl⟩⟩, rfl, rfl⟩

/-- The name of one class is the keyword that declares another. -/
theorem isSubclass_of_extends :
    IsSubclass "class class extends extends extends" "extends" ⟨"extends", 6, 35⟩ := by
  have hspace := isBlank_of_mem_space
  exact ⟨"class ".toList, "class extends extends extends".toList, [' '], [' '], [' '], [], rfl,
    ⟨⟨rfl, by simp, hspace, by simp, isWord_of_mem_keyword, rfl, rfl⟩,
      ⟨rfl, by simp, hspace, by simp, hspace, rfl⟩⟩, rfl, rfl⟩

/-- The scan for subclasses lists names of declarations in the order of the text.  What it leaves
out starts inside of a declaration that it lists, and it leaves nothing out of any text, as long as
the parent is not one of the words `class` and `extends` themselves. -/
theorem children_lists_subclasses {parent : String} (hne : parent ≠ "")
    (hword : ∀ c ∈ parent.toList, Unicode.isWord c = true) :
    (∀ text, ∃ spans, ListedAt text parent spans) ∧
      ((∀ text, ∃ spans, ListedAt text parent spans ∧
          ∀ span, IsSubclass text parent span → span ∈ spans) ↔
        parent ≠ "class" ∧ parent ≠ "extends") := by
  refine ⟨fun text => ⟨_, listedAt_taken hne hword⟩, ?_⟩
  constructor
  · intro hcomplete
    constructor
    · rintro rfl
      obtain ⟨spans, hlisted, hall⟩ := hcomplete "class A extends class B extends class"
      have hmem := List.mem_map_of_mem (f := Span.name) (hall _ isSubclass_of_class)
      rw [← hlisted.children_eq] at hmem
      revert hmem
      decide +kernel
    · rintro rfl
      obtain ⟨spans, hlisted, hall⟩ := hcomplete "class class extends extends extends"
      have hmem := List.mem_map_of_mem (f := Span.name) (hall _ isSubclass_of_extends)
      rw [← hlisted.children_eq] at hmem
      revert hmem
      decide +kernel
  · rintro ⟨hclass, hextends⟩ text
    refine ⟨_, listedAt_taken hne hword, ?_⟩
    intro span hspan
    obtain ⟨spot, hspot, rfl⟩ := (isSubclass_iff hne hword).mp hspan
    rw [taken_eq_spots (apart_of_parent hne hword hclass hextends)]
    exact List.mem_map_of_mem hspot

/-- A class called `class` hides nothing from the scan. -/
theorem children_lists_subclasses_nested :
    children "class class extends Card class Box\nextends Card" "Card" = ["class", "Box"] ∧
      ∃ spans, ListedAt "class class extends Card class Box\nextends Card" "Card" spans ∧
        ∀ span, IsSubclass "class class extends Card class Box\nextends Card" "Card" span →
          span ∈ spans := by
  have hcomplete := (@children_lists_subclasses "Card" (by decide)
    (List.all_eq_true.mp (by decide))).2.mpr ⟨by decide, by decide⟩
  exact ⟨by decide +kernel, hcomplete _⟩

end Lineage.Lexical.Extension
