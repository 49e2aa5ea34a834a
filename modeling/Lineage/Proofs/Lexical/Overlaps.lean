import Lineage.Proofs.Lexical.Declared
import Lineage.Proofs.Lexical.Scans

/-!
# Declarations inside of declarations

Two rules ask whether a text declares a class: one searches for a given name at every position, the
other lists the declared names in a scan that goes on behind each declaration.  What the scan passes
over starts inside of a declaration, and the form of a declaration leaves little room for that.  It
is made of words with blanks between them, and the keyword starts a word.  So a declaration inside
of another starts at the declared name, which then is the keyword itself, as in
`class class Card`.

## Main results

* `exists_past_word`: where a word can start in a text of words and blanks.
* `gapAndName?_eq_some_iff`: what the search for a name that is a word recognises.
* `Declaration.Shape.name_eq_keyword`: a declaration inside of another starts at its name.
* `Declaration.declares_agrees_with_names`: the two rules agree unless a class is called `class`.
-/

namespace Lineage.Lexical

open Unicode (isWord isBlank)

/-! ## Runs of characters -/

/-- A text can be cut in one way only into a run of a class of characters and a rest where the run
does not go on. -/
theorem run_unique {p : Char → Bool} {run other rest further : List Char}
    (h : run ++ rest = other ++ further) (hrun : ∀ c ∈ run, p c = true)
    (hother : ∀ c ∈ other, p c = true) (hrest : rest.head?.any p = false)
    (hfurther : further.head?.any p = false) : run = other ∧ rest = further := by
  obtain ⟨htake, hdrop⟩ := takeWhile_run hrun hrest
  obtain ⟨htakeOther, hdropOther⟩ := takeWhile_run hother hfurther
  rw [h] at htake hdrop
  exact ⟨htake.symm.trans htakeOther, hdrop.symm.trans hdropOther⟩

/-- Behind a run of word characters a word may go on. -/
theorem isWordAt_charBefore (before : Option Char) {run : List Char} (hne : run ≠ [])
    (hrun : ∀ c ∈ run, isWord c = true) : isWordAt (charBefore before run) = true := by
  rw [charBefore, List.getLast?_eq_some_getLast hne]
  exact hrun _ (List.getLast_mem hne)

/-- Blanks begin where no word goes on. -/
theorem isWordAt_head?_of_blanks {blanks : List Char} (hne : blanks ≠ [])
    (hblanks : ∀ c ∈ blanks, isBlank c = true) (rest : List Char) :
    isWordAt (blanks ++ rest).head? = false := by
  obtain ⟨c, others, rfl⟩ := List.exists_cons_of_ne_nil hne
  show isWord c = false
  rw [Bool.eq_false_iff]
  intro hword
  have hblank := hblanks c List.mem_cons_self
  rw [isBlank_eq_false_of_isWord hword] at hblank
  cases hblank

/-- A word begins where no blank stands. -/
theorem isBlank_head?_of_word {run : List Char} (hne : run ≠ [])
    (hrun : ∀ c ∈ run, isWord c = true) (rest : List Char) :
    (run ++ rest).head?.any isBlank = false := by
  obtain ⟨c, others, rfl⟩ := List.exists_cons_of_ne_nil hne
  exact isBlank_eq_false_of_isWord (hrun c List.mem_cons_self)

/-- A text can be cut in one way only into a word, the blanks behind it and the rest. -/
theorem word_gap_unique {run other blanks gap rest further : List Char}
    (h : run ++ (blanks ++ rest) = other ++ (gap ++ further))
    (hrun : ∀ c ∈ run, isWord c = true) (hother : ∀ c ∈ other, isWord c = true)
    (hblanksNe : blanks ≠ []) (hblanks : ∀ c ∈ blanks, isBlank c = true)
    (hgapNe : gap ≠ []) (hgap : ∀ c ∈ gap, isBlank c = true)
    (hrest : rest.head?.any isBlank = false) (hfurther : further.head?.any isBlank = false) :
    run = other ∧ rest = further := by
  obtain ⟨hword, htail⟩ := run_unique h hrun hother
    (isWordAt_head?_of_blanks hblanksNe hblanks rest) (isWordAt_head?_of_blanks hgapNe hgap further)
  exact ⟨hword, (run_unique htail hblanks hgap hrest hfurther).2⟩

/-! ## Where a word can start -/

/-- A word starts at the position. -/
structure StartsWord (before : Option Char) (here : List Char) : Prop where
  not_before : isWordAt before = false
  here : isWordAt here.head? = true

/-- Behind the beginning of a word and the blanks after it, the next word to start is behind the
blanks. -/
theorem exists_past_word {before : Option Char} {run blanks rest more here : List Char}
    (hcut : run ++ (blanks ++ rest) = more ++ here) (hne : more ≠ [])
    (hrun : ∀ c ∈ run, isWord c = true) (hblanks : ∀ c ∈ blanks, isBlank c = true)
    (hstarts : StartsWord (charBefore before more) here) :
    ∃ past, more = run ++ (blanks ++ past) ∧ rest = past ++ here ∧
      StartsWord (charBefore (charBefore before (run ++ blanks)) past) here := by
  have hbehind : ¬ ∀ c ∈ more, isWord c = true := by
    intro hmore
    have hword := isWordAt_charBefore before hne hmore
    rw [hstarts.not_before] at hword
    cases hword
  rcases List.append_eq_append_iff.mp hcut with ⟨part, rfl, hpart⟩ | ⟨part, rfl, -⟩
  · rcases List.append_eq_append_iff.mp hpart with ⟨past, rfl, hpast⟩ | ⟨others, rfl, hhere⟩
    · rw [← List.append_assoc, charBefore_append] at hstarts
      exact ⟨past, rfl, hpast, hstarts⟩
    · -- The position is within the blanks, and no word starts at a blank.
      by_cases hothers : others = []
      · subst hothers
        exact ⟨[], by simp, by simpa using hhere.symm, by simpa using hstarts⟩
      · have hblank := isWordAt_head?_of_blanks hothers
          (fun c hc => hblanks c (List.mem_append_right _ hc)) rest
        rw [← hhere, hstarts.here] at hblank
        cases hblank
  · exact absurd (fun c hc => hrun c (List.mem_append_left _ hc)) hbehind

/-- Behind the beginning of the last word, the next word to start is behind that. -/
theorem exists_past_end {before : Option Char} {run rest more here : List Char}
    (hcut : run ++ rest = more ++ here) (hne : more ≠ []) (hrun : ∀ c ∈ run, isWord c = true)
    (hstarts : StartsWord (charBefore before more) here) :
    ∃ past, more = run ++ past ∧ rest = past ++ here := by
  have hcutNone : run ++ ([] ++ rest) = more ++ here := hcut
  obtain ⟨past, hmore, hrest, -⟩ :=
    exists_past_word hcutNone hne hrun (fun _ h => nomatch h) hstarts
  exact ⟨past, hmore, hrest⟩

/-! ## The search for a name that is a word -/

theorem startsWithName_iff {name text : List Char} (hne : name ≠ [])
    (hword : ∀ c ∈ name, isWord c = true) :
    startsWithName name text = true ↔
      ∃ rest, text = name ++ rest ∧ isWordAt rest.head? = false := by
  constructor
  · intro h
    have hlast : isWordAt name.getLast? = true := by
      rw [List.getLast?_eq_some_getLast hne]
      exact hword _ (List.getLast_mem hne)
    unfold startsWithName at h
    split at h
    · cases h
    · next rest hafter =>
        refine ⟨rest, Text.after?_eq_some_iff.mp hafter, ?_⟩
        simpa [atBoundary, hlast] using h
  · rintro ⟨rest, rfl, hends⟩
    exact Declaration.startsWithName_append hne hword hends

/-- Whatever the name is, it is found behind blanks. -/
theorem exists_of_gapAndName? {name text : List Char} {length : Nat}
    (h : gapAndName? name text = some length) :
    ∃ blanks rest, text = blanks ++ rest ∧ blanks ≠ [] ∧ (∀ c ∈ blanks, isBlank c = true) ∧
      startsWithName name rest = true ∧ length = blanks.length + name.length := by
  induction text generalizing length with
  | nil => cases h
  | cons c text ih =>
      rw [gapAndName?] at h
      by_cases hblank : isBlank c = true
      · rw [if_pos hblank] at h
        cases hmore : gapAndName? name text with
        | some more =>
            obtain ⟨blanks, rest, rfl, -, hblanks, hname, rfl⟩ := ih hmore
            have hlength : blanks.length + name.length + 1 = length := by simpa [hmore] using h
            refine ⟨c :: blanks, rest, rfl, by simp, List.forall_mem_cons.mpr ⟨hblank, hblanks⟩,
              hname, ?_⟩
            rw [← hlength, List.length_cons]
            omega
        | none =>
            have hfound : startsWithName name text = true ∧ name.length + 1 = length := by
              simpa [hmore] using h
            exact ⟨[c], text, rfl, by simp, by simp [hblank], hfound.1, by simp; omega⟩
      · rw [if_neg hblank] at h
        cases h

/-- A name that is a word is found behind all of the blanks, and up to where the word ends. -/
theorem gapAndName?_eq_some_iff {name text : List Char} {length : Nat} (hne : name ≠ [])
    (hword : ∀ c ∈ name, isWord c = true) :
    gapAndName? name text = some length ↔
      ∃ blanks rest, text = blanks ++ (name ++ rest) ∧ blanks ≠ [] ∧
        (∀ c ∈ blanks, isBlank c = true) ∧ isWordAt rest.head? = false ∧
        length = blanks.length + name.length := by
  constructor
  · intro h
    obtain ⟨blanks, rest, rfl, hblanksNe, hblanks, hname, hlength⟩ := exists_of_gapAndName? h
    obtain ⟨rest, rfl, hends⟩ := (startsWithName_iff hne hword).mp hname
    exact ⟨blanks, rest, rfl, hblanksNe, hblanks, hends, hlength⟩
  · rintro ⟨blanks, rest, rfl, hblanksNe, hblanks, hends, rfl⟩
    have hname := (startsWithName_iff hne hword).mpr ⟨rest, rfl, hends⟩
    have hsome := isSome_gapAndName? hblanksNe hblanks hname
    obtain ⟨found, hfound⟩ := Option.isSome_iff_exists.mp hsome
    obtain ⟨others, further, hcut, -, hothers, hthere, rfl⟩ := exists_of_gapAndName? hfound
    obtain ⟨further, rfl, -⟩ := (startsWithName_iff hne hword).mp hthere
    obtain ⟨rfl, -⟩ := run_unique hcut hblanks hothers
      (isBlank_head?_of_word hne hword rest) (isBlank_head?_of_word hne hword further)
    exact hfound

namespace Declaration

variable {before : Option Char} {text here more blanks name rest : List Char}

/-! ## Declarations of a given name -/

theorem isWord_of_mem_keyword : ∀ c ∈ keyword, isWord c = true :=
  List.all_eq_true.mp (by decide)

/-- Both rules recognise a declaration by the same form. -/
theorem declares_iff_declaredIn {text name : String} (hne : name ≠ "")
    (hword : ∀ c ∈ name.toList, isWord c = true) :
    declares text name = true ↔ DeclaredIn text name := by
  have hchars : name.toList ≠ [] := by simpa [String.toList_eq_nil_iff] using hne
  constructor
  · intro h
    obtain ⟨lead, here, hcut, hdeclares⟩ := existsAt_iff.mp h
    unfold declaresAt at hdeclares
    split at hdeclares
    · cases hdeclares
    · next after hkeyword =>
        obtain ⟨length, hlength⟩ := Option.isSome_iff_exists.mp hdeclares
        obtain ⟨blanks, rest, rfl, hblanksNe, hblanks, hends, -⟩ :=
          (gapAndName?_eq_some_iff hchars hword).mp hlength
        obtain ⟨rfl, hstarts⟩ := afterKeyword?_eq_some_iff.mp hkeyword
        exact ⟨lead, _, blanks, rest, hcut, rfl, hblanksNe, hblanks, hchars, hword, hstarts, hends⟩
  · exact declares_of_declaredIn

theorem mem_names_iff {text name : String} :
    name ∈ names text ↔ ∃ spot ∈ taken nameAt? text.toList, spot.2.value = name.toList := by
  rw [names, ← map_taken, List.map_map, List.mem_map]
  apply exists_congr
  intro spot
  apply and_congr_right
  intro _
  rw [Function.comp_apply, ← String.toList_inj, String.toList_ofList]

/-! ## Declarations inside of others -/

theorem Shape.startsWord (h : Shape before text blanks name rest) : StartsWord before text where
  not_before := h.starts
  here := by rw [h.text_eq]; rfl

/-- The position is behind the beginning of a declaration, up to the end of the declared name. If a
declaration starts there as well, it starts at the name, which is the keyword. -/
theorem Shape.name_eq_keyword {innerBlanks innerName innerRest : List Char}
    (houter : Shape before (more ++ here) blanks name rest) (hne : more ≠ [])
    (hlength : more.length < keyword.length + blanks.length + name.length)
    (hinner : Shape (charBefore before more) here innerBlanks innerName innerRest) :
    name = keyword := by
  obtain ⟨past, rfl, hpast, hstarts⟩ := exists_past_word houter.text_eq.symm hne
    isWord_of_mem_keyword houter.isBlank hinner.startsWord
  by_cases hnil : past = []
  · -- Both the name and the keyword are the whole word that stands there.
    subst hnil
    rw [List.nil_append, hinner.text_eq] at hpast
    have hends := isWordAt_head?_of_blanks hinner.blanks_ne_nil hinner.isBlank
      (innerName ++ innerRest)
    exact (run_unique hpast houter.isWord isWord_of_mem_keyword houter.ends hends).1
  · obtain ⟨further, rfl, -⟩ := exists_past_end hpast hnil houter.isWord hstarts
    simp at hlength
    omega

/-- A declared name that a scan passes over stands in a declaration of a class called `class`. -/
theorem mem_names_or_keyword_mem {text name : String} (h : DeclaredIn text name) :
    name ∈ names text ∨ "class" ∈ names text := by
  obtain ⟨lead, here, blanks, rest, hcut, hshape⟩ := h
  let found : Found (List Char) :=
    ⟨name.toList, keyword.length + blanks.length + name.toList.length⟩
  have hfound : nameAt? (charBefore none lead) here = some found :=
    nameAt?_eq_some_iff.mpr ⟨blanks, rest, hshape, rfl⟩
  have hne : here ≠ [] := by
    rw [hshape.text_eq]
    exact List.append_ne_nil_of_left_ne_nil (by decide) _
  have hspot : (lead.length, found) ∈ spots nameAt? text.toList :=
    mem_spotsFrom_iff.mpr ⟨lead, here, hcut, hne, by simp, hfound⟩
  have hselects := selects_taken nameAt? text.toList
  rcases hselects.mem_or_inside _ hspot with htaken | ⟨other, hother, hinside⟩
  · exact .inl (mem_names_iff.mpr ⟨_, htaken, rfl⟩)
  · obtain ⟨before, more, here, hmore, hlength, houter, hinner⟩ :=
      exists_cut_of_inside hspot (hselects.sublist.subset hother) hinside
    obtain ⟨outerBlanks, outerRest, houterShape, houterLength⟩ := nameAt?_eq_some_iff.mp houter
    obtain ⟨innerBlanks, innerRest, hinnerShape, -⟩ := nameAt?_eq_some_iff.mp hinner
    rw [houterLength] at hlength
    have hkeyword := houterShape.name_eq_keyword hmore hlength hinnerShape
    exact .inr (mem_names_iff.mpr ⟨other, hother, hkeyword⟩)

/-- The name of a class is found by the search for it if the scan lists it.  The scan lists every
name that the search finds, unless it lists a class called `class`: only there can one declaration
start inside of another. -/
theorem declares_agrees_with_names {text name : String} (hne : name ≠ "")
    (hword : ∀ c ∈ name.toList, isWord c = true) :
    (name ∈ names text → declares text name = true) ∧
      (declares text name = true → name ∈ names text ∨ "class" ∈ names text) := by
  constructor
  · intro h
    obtain ⟨spot, hspot, hvalue⟩ := mem_names_iff.mp h
    obtain ⟨lead, here, hcut, -, -, hfound⟩ :=
      mem_spotsFrom_iff.mp ((selects_taken nameAt? text.toList).sublist.subset hspot)
    have hdeclared := declaredIn_of_nameAt? hcut hfound
    rw [hvalue, String.ofList_toList] at hdeclared
    exact declares_of_declaredIn hdeclared
  · intro h
    exact mem_names_or_keyword_mem ((declares_iff_declaredIn hne hword).mp h)

/-- The declaration of one class is passed over, as it starts inside of another; the declaration
behind them is found by both rules. -/
theorem declares_agrees_with_names_nested :
    names "class class Card\nclass Box" = ["class", "Box"] ∧
      declares "class class Card\nclass Box" "Card" = true ∧
      declares "class class Card\nclass Box" "Box" = true := by
  have hnames : names "class class Card\nclass Box" = ["class", "Box"] := by decide +kernel
  have hcard : declares "class class Card\nclass Box" "Card" = true := by decide +kernel
  obtain ⟨hfound, -⟩ := @declares_agrees_with_names "class class Card\nclass Box" "Box"
    (by decide) (List.all_eq_true.mp (by decide))
  exact ⟨hnames, hcard, hfound (by rw [hnames]; decide)⟩

end Declaration

end Lineage.Lexical
