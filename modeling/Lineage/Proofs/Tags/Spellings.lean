import Lineage.Lexical.Tag

/-!
# Components told apart by their tags

The spelling of a component in tags writes each capital of ASCII as a hyphen and the small letter,
and leaves out the hyphen at the start.  An identifier has no hyphen of its own, so each hyphen in
its spelling stands before what was a capital, and whatever follows the first character can be read
back.  Of the first character nothing tells any more whether it was a capital.  So two components
share a tag exactly if they differ in nothing but the case of their first letter.

Everything rests on one equation: to spell an identifier is to make its first letter small and to
spell the rest character by character.

## Main results

* `unspell_flatMap`: a text without hyphens is read back from its characters spelled one by one.
* `toList_kebab`: the spelling of an identifier by its first character and the rest.
* `kebab_eq_iff_sameButFirstCase`: which components share a tag, and how a spelling is spelled.
-/

namespace Lineage.Lexical.Tag

/-! ## Capitals -/

theorem toNat_lt_of_isUpper {c : Char} (h : c.isUpper = true) : c.toNat < 0x80 := by
  have hrange : c.val ≥ 'A'.val ∧ c.val ≤ 'Z'.val := of_decide_eq_true h
  have hlast : c.toNat ≤ 'Z'.toNat := UInt32.le_iff_toNat_le.mp hrange.2
  exact Nat.lt_of_le_of_lt hlast (by decide)

/-- A capital comes back from its small letter. -/
theorem toUpper_toLower {c : Char} (h : c.isUpper = true) : c.toLower.toUpper = c := by
  have hcodes : ∀ code < 0x80, (Char.ofNat code).isUpper = true →
      (Char.ofNat code).toLower.toUpper = Char.ofNat code := by decide
  have hcode := hcodes c.toNat (toNat_lt_of_isUpper h)
  rw [Char.ofNat_toNat] at hcode
  exact hcode h

theorem toLower_eq_self {c : Char} (h : c.isUpper = false) : c.toLower = c :=
  dif_neg (of_decide_eq_false h)

theorem isUpper_toLower (c : Char) : c.toLower.isUpper = false := by
  cases h : c.isUpper with
  | false => rw [toLower_eq_self h, h]
  | true =>
      have hcodes : ∀ code < 0x80, (Char.ofNat code).toLower.isUpper = false := by decide
      have hcode := hcodes c.toNat (toNat_lt_of_isUpper h)
      rwa [Char.ofNat_toNat] at hcode

/-- Making a letter small makes no hyphen. -/
theorem toLower_ne_hyphen {c : Char} (h : c ≠ '-') : c.toLower ≠ '-' := by
  intro hhyphen
  cases hupper : c.isUpper with
  | false => exact h ((toLower_eq_self hupper).symm.trans hhyphen)
  | true =>
      have hback := toUpper_toLower hupper
      rw [hhyphen] at hback
      exact h hback.symm

theorem kebabChar_of_isUpper {c : Char} (h : c.isUpper = true) :
    kebabChar c = ['-', c.toLower] := by
  rw [kebabChar, if_pos h]

theorem kebabChar_eq_self {c : Char} (h : c.isUpper = false) : kebabChar c = [c] := by
  rw [kebabChar, h, if_neg Bool.false_ne_true]

/-- A character is spelled without capitals. -/
theorem isUpper_of_mem_kebabChar {c d : Char} (h : d ∈ kebabChar c) : d.isUpper = false := by
  cases hupper : c.isUpper with
  | false =>
      rw [kebabChar_eq_self hupper, List.mem_singleton] at h
      rw [h, hupper]
  | true =>
      rw [kebabChar_of_isUpper hupper, List.mem_cons, List.mem_singleton] at h
      rcases h with rfl | rfl
      · rfl
      · exact isUpper_toLower c

/-- A text without capitals is spelled as it is. -/
theorem flatMap_kebabChar_eq_self {text : List Char} (h : ∀ c ∈ text, c.isUpper = false) :
    text.flatMap kebabChar = text := by
  induction text with
  | nil => rfl
  | cons c rest ih =>
      obtain ⟨hfirst, hrest⟩ := List.forall_mem_cons.mp h
      rw [List.flatMap_cons, kebabChar_eq_self hfirst, ih hrest, List.singleton_append]

/-! ## Reading a spelling -/

/-- The text of which these are the spelled characters: what follows a hyphen was a capital. -/
def unspell : List Char → List Char
  | [] => []
  | ['-'] => ['-']
  | '-' :: c :: rest => c.toUpper :: unspell rest
  | c :: rest => c :: unspell rest

theorem unspell_cons_of_ne {c : Char} (h : c ≠ '-') (rest : List Char) :
    unspell (c :: rest) = c :: unspell rest := by
  rw [unspell]
  · rintro rfl
    exact absurd rfl h
  · rintro d others rfl
    exact absurd rfl h

/-- A text without hyphens is read back from its characters spelled one by one. -/
theorem unspell_flatMap {text : List Char} (h : '-' ∉ text) :
    unspell (text.flatMap kebabChar) = text := by
  induction text with
  | nil => rfl
  | cons c rest ih =>
      rw [List.mem_cons, not_or] at h
      obtain ⟨hfirst, hrest⟩ := h
      rw [List.flatMap_cons]
      cases hupper : c.isUpper with
      | false =>
          rw [kebabChar_eq_self hupper, List.singleton_append, unspell_cons_of_ne (Ne.symm hfirst),
            ih hrest]
      | true =>
          rw [kebabChar_of_isUpper hupper, List.cons_append, List.singleton_append, unspell,
            toUpper_toLower hupper, ih hrest]

theorem flatMap_kebabChar_inj {text other : List Char} (h : '-' ∉ text) (hother : '-' ∉ other) :
    text.flatMap kebabChar = other.flatMap kebabChar ↔ text = other := by
  constructor
  · intro hspelled
    rw [← unspell_flatMap h, hspelled, unspell_flatMap hother]
  · exact congrArg _

/-! ## Spelling an identifier -/

/-- The first letter is made small, and the rest is spelled character by character. -/
theorem toList_kebab {ident : String} {c : Char} {rest : List Char}
    (hchars : ident.toList = c :: rest) (hfirst : c ≠ '-') :
    (kebab ident).toList = c.toLower :: rest.flatMap kebabChar := by
  cases hupper : c.isUpper with
  | true =>
      have hspelled : ident.toList.flatMap kebabChar =
          '-' :: c.toLower :: rest.flatMap kebabChar := by
        rw [hchars, List.flatMap_cons, kebabChar_of_isUpper hupper]
        rfl
      rw [kebab, hspelled]
      exact String.toList_ofList
  | false =>
      have hspelled : ident.toList.flatMap kebabChar = c :: rest.flatMap kebabChar := by
        rw [hchars, List.flatMap_cons, kebabChar_eq_self hupper]
        rfl
      rw [kebab, hspelled, toLower_eq_self hupper]
      split
      · next others hhyphen =>
          rw [List.cons.injEq] at hhyphen
          exact absurd hhyphen.1 hfirst
      · exact String.toList_ofList

/-- The texts have the same characters, but for the ASCII case of the first. -/
def SameButFirstCase (text other : String) : Prop :=
  text.toList.head?.map Char.toLower = other.toList.head?.map Char.toLower ∧
    text.toList.tail = other.toList.tail

instance (text other : String) : Decidable (SameButFirstCase text other) :=
  inferInstanceAs (Decidable (_ ∧ _))

variable {ident other : String}

theorem eq_empty_of_toList {text : String} (h : text.toList = []) : text = "" :=
  String.toList_inj.mp h

/-- Nothing but the empty text is spelled as the empty text. -/
theorem kebab_ne_empty {c : Char} {rest : List Char} (hchars : ident.toList = c :: rest)
    (hfirst : c ≠ '-') : kebab ident ≠ "" := by
  intro hempty
  have hspelled := toList_kebab hchars hfirst
  rw [hempty] at hspelled
  cases hspelled

theorem kebab_eq_iff (h : '-' ∉ ident.toList) (hother : '-' ∉ other.toList) :
    kebab ident = kebab other ↔ SameButFirstCase ident other := by
  unfold SameButFirstCase
  cases hchars : ident.toList with
  | nil =>
      obtain rfl := eq_empty_of_toList hchars
      cases hothers : other.toList with
      | nil =>
          obtain rfl := eq_empty_of_toList hothers
          exact iff_of_true rfl ⟨rfl, rfl⟩
      | cons d others =>
          rw [hothers, List.mem_cons, not_or] at hother
          exact iff_of_false (kebab_ne_empty hothers (Ne.symm hother.1)).symm (by simp)
  | cons c rest =>
      rw [hchars, List.mem_cons, not_or] at h
      obtain ⟨hfirst, hrest⟩ := h
      cases hothers : other.toList with
      | nil =>
          obtain rfl := eq_empty_of_toList hothers
          exact iff_of_false (kebab_ne_empty hchars (Ne.symm hfirst)) (by simp)
      | cons d others =>
          rw [hothers, List.mem_cons, not_or] at hother
          obtain ⟨hfirstOther, hrestOther⟩ := hother
          rw [← String.toList_inj, toList_kebab hchars (Ne.symm hfirst),
            toList_kebab hothers (Ne.symm hfirstOther), List.cons.injEq,
            flatMap_kebabChar_inj hrest hrestOther]
          simp

/-- The spelling of an identifier has no capitals. -/
theorem isUpper_of_mem_kebab (h : '-' ∉ ident.toList) {c : Char}
    (hc : c ∈ (kebab ident).toList) : c.isUpper = false := by
  cases hchars : ident.toList with
  | nil =>
      obtain rfl := eq_empty_of_toList hchars
      exact absurd hc List.not_mem_nil
  | cons d rest =>
      rw [hchars, List.mem_cons, not_or] at h
      rw [toList_kebab hchars (Ne.symm h.1), List.mem_cons, List.mem_flatMap] at hc
      rcases hc with rfl | ⟨e, -, hspelled⟩
      · exact isUpper_toLower d
      · exact isUpper_of_mem_kebabChar hspelled

/-- A spelling is spelled as it is. -/
theorem kebab_kebab (h : '-' ∉ ident.toList) : kebab (kebab ident) = kebab ident := by
  have hsmall : ∀ c ∈ (kebab ident).toList, c.isUpper = false :=
    fun c hc => isUpper_of_mem_kebab h hc
  cases hchars : ident.toList with
  | nil =>
      obtain rfl := eq_empty_of_toList hchars
      rfl
  | cons c rest =>
      rw [hchars, List.mem_cons, not_or] at h
      have hspelled := toList_kebab hchars (Ne.symm h.1)
      rw [hspelled, List.forall_mem_cons] at hsmall
      rw [← String.toList_inj, toList_kebab hspelled (toLower_ne_hyphen (Ne.symm h.1)),
        toLower_eq_self hsmall.1, flatMap_kebabChar_eq_self hsmall.2, hspelled]

/-- Two identifiers have one spelling in tags exactly if they differ in nothing but the case of
their first letter.  The spelling has no capitals, so it is spelled as it is. -/
theorem kebab_eq_iff_sameButFirstCase (h : '-' ∉ ident.toList) (hother : '-' ∉ other.toList) :
    (kebab ident = kebab other ↔ SameButFirstCase ident other) ∧
      (∀ c ∈ (kebab ident).toList, c.isUpper = false) ∧
      kebab (kebab ident) = kebab ident :=
  ⟨kebab_eq_iff h hother, fun _ hc => isUpper_of_mem_kebab h hc, kebab_kebab h⟩

/-- The first letter may be a capital or not.  Any other capital tells two components apart, and so
does the case of a letter that is not in ASCII. -/
theorem kebab_eq_iff_sameButFirstCase_acronym :
    kebab "ProductHTML2_É" = "product-h-t-m-l2_É" ∧
      kebab "ProductHTML2_É" = kebab "productHTML2_É" ∧
      kebab "ProductHTML2_É" ≠ kebab "productHtml2_É" ∧
      kebab "ProductHTML2_É" ≠ kebab "ProductHTML2_é" ∧
      kebab "product-h-t-m-l2_É" = "product-h-t-m-l2_É" := by
  have hspelled : kebab "ProductHTML2_É" = "product-h-t-m-l2_É" := rfl
  have h : '-' ∉ "ProductHTML2_É".toList := by decide
  obtain ⟨hfirst, -, hagain⟩ := kebab_eq_iff_sameButFirstCase h
    (by decide : '-' ∉ "productHTML2_É".toList)
  obtain ⟨hinner, -, -⟩ := kebab_eq_iff_sameButFirstCase h
    (by decide : '-' ∉ "productHtml2_É".toList)
  obtain ⟨haccent, -, -⟩ := kebab_eq_iff_sameButFirstCase h
    (by decide : '-' ∉ "ProductHTML2_é".toList)
  refine ⟨hspelled, hfirst.mpr (by decide), mt hinner.mp (by decide),
    mt haccent.mp (by decide), ?_⟩
  rw [← hspelled]
  exact hagain

end Lineage.Lexical.Tag
