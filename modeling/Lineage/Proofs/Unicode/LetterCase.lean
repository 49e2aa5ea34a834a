import Lineage.Unicode.Lowercase

/-!
# Texts in lower case

Texts are compared in lower case, and some of them have been brought to lower case before.  This
does no harm because it can be done only once: no small letter of the table is itself a capital, and
the two capitals with a rule of their own never come out of it.

The table has some hundred runs of capitals.  Instead of going through their letters, the runs are
compared with each other: the small letters of one lie before or behind the capitals of the other,
or between them.

## Main results

* `isSmall_lowerChar`: what a capital becomes is a small letter.
* `lower_lower`: a text in lower case stays as it is.
-/

namespace Lineage.Unicode

/-! ## Runs of capitals -/

/-- The runs of capitals, the one with a rule of its own that is in no run included. -/
def capitalRuns : List CaseRun := ⟨0x130, 0x130, 1, 0x69⟩ :: caseRuns

/-- The small letters of the first run lie before or behind the capitals of the other, or each of
them between two of these. -/
def CaseRun.isApart (run other : CaseRun) : Bool :=
  Nat.blt (run.target + (run.last - run.first)) other.first || Nat.blt other.last run.target ||
    ((Nat.beq (run.stride % 2) 0 || Nat.beq run.last run.first) && Nat.beq (other.stride % 2) 0 &&
      Nat.beq ((run.target + other.first) % 2) 1)

theorem isApart_caseRuns : (caseRuns.all fun run => capitalRuns.all run.isApart) = true := by
  decide +kernel

/-- A small letter of the first run is no capital of the other. -/
theorem CaseRun.covers_eq_false {run other : CaseRun} (hapart : run.isApart other = true)
    {offset : Nat} (hoffset : offset ≤ run.last - run.first)
    (hstride : offset % run.stride = 0) : other.covers (run.target + offset) = false := by
  rw [Bool.eq_false_iff]
  intro hcovers
  simp only [covers, Bool.and_eq_true, decide_eq_true_eq, beq_iff_eq] at hcovers
  simp only [isApart, Bool.or_eq_true, Bool.and_eq_true, Nat.blt_eq, Nat.beq_eq] at hapart
  obtain ⟨⟨hfirst, hlast⟩, hthere⟩ := hcovers
  rcases hapart with (hbefore | hbehind) | ⟨⟨hpairs, hpairsOther⟩, hbetween⟩
  · omega
  · omega
  · -- Both runs go in steps of two, and they start on different sides.
    have heven : offset % 2 = 0 := by
      rcases hpairs with hpairs | hsingle
      · exact Nat.mod_eq_zero_of_dvd
          (Nat.dvd_trans (Nat.dvd_of_mod_eq_zero hpairs) (Nat.dvd_of_mod_eq_zero hstride))
      · omega
    have hevenOther : (run.target + offset - other.first) % 2 = 0 :=
      Nat.mod_eq_zero_of_dvd
        (Nat.dvd_trans (Nat.dvd_of_mod_eq_zero hpairsOther) (Nat.dvd_of_mod_eq_zero hthere))
    omega

/-! ## Characters -/

/-- The character is a small letter or has no case, and no rule of its own applies to it. -/
def IsSmall (c : Char) : Prop := c ≠ 'Σ' ∧ c ≠ 'İ' ∧ lowerChar c = c

instance (c : Char) : Decidable (IsSmall c) := inferInstanceAs (Decidable (_ ∧ _ ∧ _))

theorem isSmall_toLower_of_lt {c : Char} (hascii : c.toNat < 0x80) : IsSmall c.toLower := by
  have hcodes : ∀ code < 0x80, IsSmall (Char.ofNat code).toLower := by decide +kernel
  have hsmall := hcodes c.toNat hascii
  rwa [Char.ofNat_toNat] at hsmall

/-- A character that no run covers is small. -/
theorem isSmall_of_uncovered {c : Char} (hcode : 0x80 ≤ c.toNat)
    (huncovered : ∀ run ∈ capitalRuns, run.covers c.toNat = false) : IsSmall c := by
  have hsigma : ∃ run ∈ capitalRuns, run.covers 'Σ'.toNat = true := by decide +kernel
  have hdotted : ∃ run ∈ capitalRuns, run.covers 'İ'.toNat = true := by decide +kernel
  refine ⟨?_, ?_, ?_⟩
  · rintro rfl
    obtain ⟨run, hrun, hcovers⟩ := hsigma
    rw [huncovered run hrun] at hcovers
    cases hcovers
  · rintro rfl
    obtain ⟨run, hrun, hcovers⟩ := hdotted
    rw [huncovered run hrun] at hcovers
    cases hcovers
  · have hnone : caseRuns.find? (fun run => run.covers c.toNat) = none := by
      rw [List.find?_eq_none]
      intro run hrun
      rw [huncovered run (List.mem_cons_of_mem _ hrun)]
      exact Bool.false_ne_true
    rw [lowerChar, if_neg (Nat.not_lt.mpr hcode), hnone]

/-- The small letter of a capital is small. -/
theorem isSmall_lower {run : CaseRun} (hrun : run ∈ caseRuns) {code : Nat}
    (hcovers : run.covers code = true) : IsSmall (run.lower code) := by
  simp only [CaseRun.covers, Bool.and_eq_true, decide_eq_true_eq, beq_iff_eq] at hcovers
  obtain ⟨⟨hfirst, hlast⟩, hstride⟩ := hcovers
  have hoffset : code - run.first ≤ run.last - run.first := by omega
  by_cases hvalid : (run.target + (code - run.first)).isValidChar
  · have hvalue : (run.lower code).toNat = run.target + (code - run.first) := by
      rw [CaseRun.lower, Char.ofNat, dif_pos hvalid]
      rfl
    by_cases hascii : (run.lower code).toNat < 0x80
    · -- The few capitals outside of ASCII with a small letter in it stay alone in their runs.
      have hsingle : ∀ run ∈ caseRuns, run.target < 0x80 →
          run.last = run.first ∧ IsSmall (Char.ofNat run.target) := by decide +kernel
      obtain ⟨halone, hsmall⟩ := hsingle run hrun (by omega)
      obtain rfl : code = run.first := by omega
      rwa [CaseRun.lower, Nat.sub_self]
    · refine isSmall_of_uncovered (Nat.not_lt.mp hascii) fun other hother => ?_
      have hapart := List.all_eq_true.mp (List.all_eq_true.mp isApart_caseRuns run hrun) other
        hother
      rw [hvalue]
      exact CaseRun.covers_eq_false hapart hoffset hstride
  · have hnull : run.lower code = '\x00' := by
      rw [CaseRun.lower, Char.ofNat, dif_neg hvalid]
      rfl
    rw [hnull]
    decide +kernel

/-- What becomes of a character that has no rule of its own. -/
theorem isSmall_lowerChar {c : Char} (hsigma : c ≠ 'Σ') (hdotted : c ≠ 'İ') :
    IsSmall (lowerChar c) := by
  by_cases hascii : c.toNat < 0x80
  · rw [lowerChar, if_pos hascii]
    exact isSmall_toLower_of_lt hascii
  · rw [lowerChar, if_neg hascii]
    split
    · next run hrun =>
        have hcovers := List.find?_some hrun
        exact isSmall_lower (List.mem_of_find?_eq_some hrun) hcovers
    · next hnone =>
        refine ⟨hsigma, hdotted, ?_⟩
        rw [lowerChar, if_neg hascii, hnone]

/-! ## Texts -/

theorem isSmall_of_mem_lowerAfter {before text : List Char} {c : Char}
    (h : c ∈ lowerAfter before text) : IsSmall c := by
  induction text generalizing before with
  | nil => cases h
  | cons d rest ih =>
      rw [lowerAfter] at h
      split at h
      · next hsigma =>
          have hends : IsSmall 'ς' := by decide +kernel
          have hstays : IsSmall 'σ' := by decide +kernel
          rcases List.mem_cons.mp h with rfl | h
          · split
            · exact hends
            · exact hstays
          · exact ih h
      · next hsigma =>
          split at h
          · have hletter : IsSmall 'i' := by decide +kernel
            have hdot : IsSmall '\u0307' := by decide +kernel
            rcases List.mem_cons.mp h with rfl | h
            · exact hletter
            rcases List.mem_cons.mp h with rfl | h
            · exact hdot
            · exact ih h
          · next hdotted =>
              rcases List.mem_cons.mp h with rfl | h
              · exact isSmall_lowerChar hsigma hdotted
              · exact ih h

/-- Small letters stay as they are, wherever they stand. -/
theorem lowerAfter_eq_self {before text : List Char} (h : ∀ c ∈ text, IsSmall c) :
    lowerAfter before text = text := by
  induction text generalizing before with
  | nil => rfl
  | cons c rest ih =>
      obtain ⟨hsigma, hdotted, hsmall⟩ := h c List.mem_cons_self
      rw [lowerAfter, if_neg hsigma, if_neg hdotted, hsmall,
        ih fun d hd => h d (List.mem_cons_of_mem c hd)]

theorem isSmall_of_mem_lower {text : String} {c : Char} (h : c ∈ (lower text).toList) :
    IsSmall c := by
  rw [lower, String.toList_ofList] at h
  exact isSmall_of_mem_lowerAfter h

theorem lower_eq_self {text : String} (h : ∀ c ∈ text.toList, IsSmall c) : lower text = text := by
  rw [lower, lowerAfter_eq_self h, String.ofList_toList]

/-- A text in lower case stays as it is. -/
theorem lower_lower (text : String) : lower (lower text) = lower text :=
  lower_eq_self fun _ => isSmall_of_mem_lower

end Lineage.Unicode
