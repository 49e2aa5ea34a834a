import Lineage.Lexical.BaseList
import Lineage.Lexical.Extension
import Lineage.Proofs.Lexical.Position
import Mathlib.Data.List.TakeWhile

/-!
# Names that a text declares

Three rules read a class name after the keyword `class`: the search for one given name, the class
header with `extends`, and the class header with a list of bases.  The last two read the longest
word there.  `DeclaredIn` says without reference to any of them that a name stands after the
keyword as a whole word, and the rules are compared with it.

## Main results

* `mem_candidates_iff`: `candidates` lists the names declared in a text.
* `declares_of_declaredIn`: the search for a name finds each of them.
* `Extension.declaredIn_of_mem_children`, `BaseList.declaredIn_of_mem_children`: a subclass is
  declared in the text that names its parent.
-/

namespace Lineage.Lexical

open Unicode (isWord isBlank)

/-! ## Blanks and words -/

/-- The code points of the blanks. -/
def blankCodes : List Nat := [
  0x09, 0x0A, 0x0B, 0x0C, 0x0D, 0x1C, 0x1D, 0x1E, 0x1F, 0x20, 0x85, 0xA0, 0x1680, 0x2000, 0x2001,
  0x2002, 0x2003, 0x2004, 0x2005, 0x2006, 0x2007, 0x2008, 0x2009, 0x200A, 0x2028, 0x2029, 0x202F,
  0x205F, 0x3000]

private theorem mem_blankCodes {c : Char} (h : isBlank c = true) : c.toNat ∈ blankCodes := by
  simp only [isBlank, Bool.or_eq_true, Bool.and_eq_true, decide_eq_true_eq, beq_iff_eq] at h
  simp only [blankCodes, List.mem_cons, List.not_mem_nil, or_false]
  omega

/-- No blank is a word character, so a word ends where blanks begin. -/
theorem isBlank_eq_false_of_isWord {c : Char} (h : isWord c = true) : isBlank c = false := by
  have hcodes : ∀ code ∈ blankCodes, isWord (Char.ofNat code) = false := by decide +kernel
  rw [Bool.eq_false_iff]
  intro hblank
  have hword := hcodes c.toNat (mem_blankCodes hblank)
  rw [Char.ofNat_toNat, h] at hword
  exact Bool.noConfusion hword

/-- A run of a class of characters ends where the class does. -/
theorem takeWhile_run {p : Char → Bool} {run rest : List Char}
    (hrun : ∀ c ∈ run, p c = true) (hrest : rest.head?.any p = false) :
    (run ++ rest).takeWhile p = run ∧ (run ++ rest).dropWhile p = rest := by
  rw [List.takeWhile_append_of_pos hrun, List.dropWhile_append_of_pos hrun]
  cases rest with
  | nil => simp
  | cons c rest =>
      have hc : p c = false := by simpa using hrest
      simp [hc]

private theorem head?_dropWhile_any (p : Char → Bool) (text : List Char) :
    (text.dropWhile p).head?.any p = false := by
  have h := List.head?_dropWhile_not p text
  cases hhead : (text.dropWhile p).head? with
  | none => rfl
  | some c => simpa [hhead] using h

theorem afterKeyword?_eq_some_iff {keyword text rest : List Char} {before : Option Char} :
    afterKeyword? keyword before text = some rest ↔
      text = keyword ++ rest ∧ isWordAt before = false := by
  rw [afterKeyword?]
  cases hafter : Text.after? keyword text with
  | none =>
      simp only [reduceCtorEq, false_iff, not_and]
      rintro rfl
      simp at hafter
  | some found =>
      rw [Text.after?_eq_some_iff] at hafter
      subst hafter
      simp [List.append_cancel_left_eq, and_comm]

/-- A name that follows some blanks and ends at a boundary is found there. -/
theorem isSome_gapAndName? {name blanks text : List Char} (hne : blanks ≠ [])
    (hblanks : ∀ c ∈ blanks, isBlank c = true) (hname : startsWithName name text = true) :
    (gapAndName? name (blanks ++ text)).isSome = true := by
  induction blanks with
  | nil => exact absurd rfl hne
  | cons c blanks ih =>
      have hc : isBlank c = true := hblanks c (by simp)
      rw [List.cons_append, gapAndName?, if_pos hc]
      -- Either the name is found after more of the blanks, or this is the last of them.
      cases hmore : gapAndName? name (blanks ++ text) with
      | some length => rfl
      | none =>
          have hlast : blanks = [] := by
            cases blanks with
            | nil => rfl
            | cons d blanks =>
                have hsome := ih (by simp) (fun e he => hblanks e (List.mem_cons_of_mem c he))
                rw [hmore] at hsome
                cases hsome
          subst hlast
          simp [hname]

/-! ## Declared names -/

namespace Declaration

/-- Between the characters around it, a text has the shape of a declaration of `name`: the keyword,
blanks and the name, the keyword and the name being whole words. -/
structure Shape (before : Option Char) (text blanks name rest : List Char) : Prop where
  text_eq : text = keyword ++ (blanks ++ (name ++ rest))
  blanks_ne_nil : blanks ≠ []
  isBlank : ∀ c ∈ blanks, Unicode.isBlank c = true
  name_ne_nil : name ≠ []
  isWord : ∀ c ∈ name, Unicode.isWord c = true
  starts : isWordAt before = false
  ends : isWordAt rest.head? = false

/-- The name stands in the text as a whole word, after the keyword and blanks. -/
def DeclaredIn (text name : String) : Prop :=
  ∃ lead here blanks rest, text.toList = lead ++ here ∧
    Shape (charBefore none lead) here blanks name.toList rest

theorem Shape.head?_isBlank {before : Option Char} {text blanks name rest : List Char}
    (h : Shape before text blanks name rest) :
    (name ++ rest).head?.any Unicode.isBlank = false := by
  cases name with
  | nil => exact absurd rfl h.name_ne_nil
  | cons c name => simpa using isBlank_eq_false_of_isWord (h.isWord c (by simp))

/-- The rule for declared names recognises the shape and nothing else. -/
theorem nameAt?_eq_some_iff {before : Option Char} {text : List Char}
    {found : Found (List Char)} :
    nameAt? before text = some found ↔
      ∃ blanks rest, Shape before text blanks found.value rest ∧
        found.length = keyword.length + blanks.length + found.value.length := by
  constructor
  · intro h
    rw [nameAt?] at h
    split at h
    · cases h
    · next rest hkeyword =>
        obtain ⟨rfl, hstarts⟩ := afterKeyword?_eq_some_iff.mp hkeyword
        dsimp only at h
        split at h
        · cases h
        · next hne =>
            rw [Bool.or_eq_true, not_or, List.isEmpty_iff, List.isEmpty_iff] at hne
            cases h
            refine ⟨gap rest, pastWord (pastGap rest), ?_, rfl⟩
            exact
              { text_eq := by simp [gap, pastGap, word, pastWord]
                blanks_ne_nil := hne.1
                isBlank := fun c hc => List.mem_takeWhile_imp hc
                name_ne_nil := hne.2
                isWord := fun c hc => List.mem_takeWhile_imp hc
                starts := hstarts
                ends := head?_dropWhile_any _ _ }
  · rintro ⟨blanks, rest, hshape, hlength⟩
    obtain ⟨hgap, hpast⟩ := takeWhile_run hshape.isBlank hshape.head?_isBlank
    obtain ⟨hword, -⟩ := takeWhile_run hshape.isWord hshape.ends
    have hkeyword := afterKeyword?_eq_some_iff.mpr ⟨hshape.text_eq, hshape.starts⟩
    rw [nameAt?, hkeyword]
    simp only [gap, pastGap, word, hgap, hpast, hword]
    rw [if_neg (by simp [hshape.blanks_ne_nil, hshape.name_ne_nil]), ← hlength]

/-- What is left of the text behind a declared name. -/
theorem drop_of_shape {before : Option Char} {text blanks name rest : List Char}
    (h : Shape before text blanks name rest) :
    text.drop (keyword.length + blanks.length + name.length) = rest := by
  rw [h.text_eq, ← List.append_assoc, ← List.append_assoc]
  exact List.drop_left' (by simp [Nat.add_assoc])

theorem declaredIn_of_nameAt? {text : String} {lead here : List Char} {found : Found (List Char)}
    (hcut : text.toList = lead ++ here) (h : nameAt? (charBefore none lead) here = some found) :
    DeclaredIn text (String.ofList found.value) := by
  obtain ⟨blanks, rest, hshape, -⟩ := nameAt?_eq_some_iff.mp h
  exact ⟨lead, here, blanks, rest, hcut, by rwa [String.toList_ofList]⟩

theorem mem_candidates_iff {text name : String} :
    name ∈ candidates text ↔ DeclaredIn text name := by
  simp only [candidates, List.mem_map, mem_everywhere_iff]
  constructor
  · rintro ⟨found, ⟨lead, here, hcut, hfound⟩, rfl⟩
    exact declaredIn_of_nameAt? hcut hfound
  · rintro ⟨lead, here, blanks, rest, hcut, hshape⟩
    have hfound : nameAt? (charBefore none lead) here =
        some ⟨name.toList, keyword.length + blanks.length + name.toList.length⟩ :=
      nameAt?_eq_some_iff.mpr ⟨blanks, rest, hshape, rfl⟩
    exact ⟨_, ⟨lead, here, hcut, hfound⟩, String.ofList_toList⟩

theorem DeclaredIn.ne_empty {text name : String} (h : DeclaredIn text name) :
    name.isEmpty = false := by
  obtain ⟨_, _, _, _, _, hshape⟩ := h
  have hne := hshape.name_ne_nil
  rw [Bool.eq_false_iff]
  intro hempty
  exact hne (by simpa [String.isEmpty_iff] using hempty)

/-- A name that is a word ends at a boundary where no word goes on. -/
theorem startsWithName_append {name rest : List Char} (hne : name ≠ [])
    (hword : ∀ c ∈ name, Unicode.isWord c = true) (hends : isWordAt rest.head? = false) :
    startsWithName name (name ++ rest) = true := by
  have hlast : isWordAt name.getLast? = true := by
    rw [List.getLast?_eq_some_getLast hne]
    exact hword _ (List.getLast_mem hne)
  simp [startsWithName, atBoundary, hlast, hends]

/-- The search for a name finds every name declared in the text. -/
theorem declares_of_declaredIn {text name : String} (h : DeclaredIn text name) :
    declares text name = true := by
  obtain ⟨lead, here, blanks, rest, hcut, hshape⟩ := h
  rw [declares, existsAt_iff]
  refine ⟨lead, here, hcut, ?_⟩
  have hkeyword := afterKeyword?_eq_some_iff.mpr ⟨hshape.text_eq, hshape.starts⟩
  have hname := startsWithName_append hshape.name_ne_nil hshape.isWord hshape.ends
  rw [declaresAt, hkeyword]
  exact isSome_gapAndName? hshape.blanks_ne_nil hshape.isBlank hname

end Declaration

/-! ## Subclasses -/

/-- A class that extends the parent is declared in the text. -/
theorem Extension.declaredIn_of_mem_children {text parent name : String}
    (h : name ∈ Extension.children text parent) : Declaration.DeclaredIn text name := by
  rw [Extension.children, List.mem_map] at h
  obtain ⟨value, hmatch, rfl⟩ := h
  obtain ⟨lead, here, found, hcut, hrule, rfl⟩ := exists_of_mem_allMatches hmatch
  rw [childAt?] at hrule
  split at hrule
  · cases hrule
  · next declared hdeclared =>
      split at hrule
      · cases hrule
      · cases hrule
        have hname := Declaration.declaredIn_of_nameAt? hcut hdeclared
        exact hname

/-- After the indent of a line no word goes on. -/
theorem isWordAt_charBefore_indent {before : Option Char} {indent : List Char}
    (hline : BaseList.atLineStart before = true)
    (hindent : ∀ c ∈ indent, BaseList.isIndent c = true) :
    isWordAt (charBefore before indent) = false := by
  cases hlast : indent.getLast? with
  | none =>
      rw [List.getLast?_eq_none_iff] at hlast
      subst hlast
      cases before with
      | none => rfl
      | some c =>
          have hc : c = '\n' := by simpa [BaseList.atLineStart] using hline
          subst hc
          decide
  | some c =>
      have hc := hindent c (List.mem_of_getLast? hlast)
      simp only [BaseList.isIndent, Bool.or_eq_true, decide_eq_true_eq] at hc
      rw [charBefore, hlast, Option.some_or]
      rcases hc with rfl | rfl <;> decide

/-- A class whose header lists the parent among its bases is declared in the text. -/
theorem BaseList.declaredIn_of_mem_children {text parent name : String}
    (h : name ∈ BaseList.children text parent) : Declaration.DeclaredIn text name := by
  rw [BaseList.children, List.mem_filterMap] at h
  obtain ⟨header, hmatch, hname⟩ := h
  obtain ⟨lead, here, found, hcut, hrule, rfl⟩ := exists_of_mem_allMatches hmatch
  rw [headerAt?] at hrule
  split at hrule
  · next hline =>
      dsimp only at hrule
      split at hrule
      · cases hrule
      · next declared hdeclared =>
          split at hrule
          · cases hrule
          · cases hrule
            rw [Option.ite_none_right_eq_some, Option.some.injEq] at hname
            obtain ⟨-, rfl⟩ := hname
            -- The rule read the name as if at the start of the text.  Past the indent that makes
            -- no difference, since neither a line feed nor an indent is a word character.
            have hindent : ∀ c ∈ here.takeWhile isIndent, isIndent c = true :=
              fun c hc => List.mem_takeWhile_imp hc
            have hbefore := isWordAt_charBefore_indent hline hindent
            rw [← charBefore_append] at hbefore
            have hcut' : text.toList =
                (lead ++ here.takeWhile isIndent) ++ here.dropWhile isIndent := by
              rw [List.append_assoc, List.takeWhile_append_dropWhile, hcut]
            refine Declaration.declaredIn_of_nameAt? hcut' ?_
            obtain ⟨blanks, rest, hshape, hlength⟩ := Declaration.nameAt?_eq_some_iff.mp hdeclared
            exact Declaration.nameAt?_eq_some_iff.mpr
              ⟨blanks, rest, { hshape with starts := hbefore }, hlength⟩
  · cases hrule

end Lineage.Lexical
