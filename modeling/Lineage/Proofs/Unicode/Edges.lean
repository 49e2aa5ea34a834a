import Lineage.Proofs.Unicode.LetterCase
import Lineage.Text.Basic
import Lineage.Unicode.Blank

/-!
# Blanks at the ends of a text in lower case

An extension is first stripped of the blanks around it and then brought to lower case.  Nothing has
to be stripped again after that: a character that is no blank becomes characters that are none.
Together with the fact that lower case is reached once and for all, this makes the form that an
extension is brought to a final one.

## Main results

* `isBlank_lowerChar`: no small letter of the table is a blank.
* `stripped_lower`: lowering a text without blanks around it leaves none around it.
-/

namespace Lineage.Unicode

/-! ## Characters -/

theorem isBlank_toLower_of_lt {c : Char} (hascii : c.toNat < 0x80) (hblank : isBlank c = false) :
    isBlank c.toLower = false := by
  have hcodes : ∀ code < 0x80, isBlank (Char.ofNat code) = false →
      isBlank (Char.ofNat code).toLower = false := by decide +kernel
  have hlower := hcodes c.toNat hascii
  rw [Char.ofNat_toNat] at hlower
  exact hlower hblank

/-- The small letters of a run are no blanks. -/
theorem isBlank_lower {run : CaseRun} (hrun : run ∈ caseRuns) {code : Nat}
    (hcovers : run.covers code = true) : isBlank (run.lower code) = false := by
  have hletters : ∀ run ∈ caseRuns, ∀ offset < run.last - run.first + 1,
      isBlank (Char.ofNat (run.target + offset)) = false := by decide +kernel
  simp only [CaseRun.covers, Bool.and_eq_true, decide_eq_true_eq] at hcovers
  obtain ⟨⟨hfirst, hlast⟩, -⟩ := hcovers
  exact hletters run hrun (code - run.first) (by omega)

theorem isBlank_lowerChar {c : Char} (hblank : isBlank c = false) :
    isBlank (lowerChar c) = false := by
  by_cases hascii : c.toNat < 0x80
  · rw [lowerChar, if_pos hascii]
    exact isBlank_toLower_of_lt hascii hblank
  · rw [lowerChar, if_neg hascii]
    split
    · next run hrun =>
        have hcovers := List.find?_some hrun
        exact isBlank_lower (List.mem_of_find?_eq_some hrun) hcovers
    · exact hblank

/-! ## Texts -/

/-- A character becomes one or two characters, whatever it stands between. -/
theorem exists_lowerAfter_cons (before : List Char) (c : Char) (rest : List Char) :
    ∃ letter others, lowerAfter before (c :: rest) =
        letter :: (others ++ lowerAfter (c :: before) rest) ∧
      (isBlank c = false → ∀ d ∈ letter :: others, isBlank d = false) := by
  have hends : isBlank 'ς' = false := by decide
  have hstays : isBlank 'σ' = false := by decide
  have hletter : isBlank 'i' = false := by decide
  have hdot : isBlank '\u0307' = false := by decide
  rw [lowerAfter]
  split
  · refine ⟨_, [], rfl, fun _ d hd => ?_⟩
    rw [List.mem_singleton.mp hd]
    split
    · exact hends
    · exact hstays
  · split
    · refine ⟨'i', ['\u0307'], rfl, fun _ d hd => ?_⟩
      rcases List.mem_cons.mp hd with rfl | hd
      · exact hletter
      · rw [List.mem_singleton.mp hd]
        exact hdot
    · refine ⟨lowerChar c, [], rfl, fun hblank d hd => ?_⟩
      rw [List.mem_singleton.mp hd]
      exact isBlank_lowerChar hblank

theorem lowerAfter_eq_nil_iff {before text : List Char} :
    lowerAfter before text = [] ↔ text = [] := by
  cases text with
  | nil => exact iff_of_true rfl rfl
  | cons c rest =>
      obtain ⟨letter, others, hlower, -⟩ := exists_lowerAfter_cons before c rest
      rw [hlower]
      exact iff_of_false (List.cons_ne_nil _ _) (List.cons_ne_nil _ _)

theorem head?_lowerAfter {before text : List Char} (h : text.head?.any isBlank = false) :
    (lowerAfter before text).head?.any isBlank = false := by
  cases text with
  | nil => rfl
  | cons c rest =>
      obtain ⟨letter, others, hlower, hblank⟩ := exists_lowerAfter_cons before c rest
      have hletter := hblank (by simpa using h) letter List.mem_cons_self
      rw [hlower]
      simpa using hletter

theorem getLast?_lowerAfter {before text : List Char} (h : text.getLast?.any isBlank = false) :
    (lowerAfter before text).getLast?.any isBlank = false := by
  induction text generalizing before with
  | nil => rfl
  | cons c rest ih =>
      obtain ⟨letter, others, hlower, hblank⟩ := exists_lowerAfter_cons before c rest
      by_cases hrest : rest = []
      · -- The last character of all is among those that the last one becomes.
        subst hrest
        have hlast := hblank (by simpa using h)
        rw [hlower, lowerAfter, List.append_nil,
          List.getLast?_eq_some_getLast (List.cons_ne_nil _ _)]
        simpa using hlast _ (List.getLast_mem (List.cons_ne_nil letter others))
      · have hothers : lowerAfter (c :: before) rest ≠ [] := mt lowerAfter_eq_nil_iff.mp hrest
        rw [List.getLast?_cons_of_ne_nil hrest] at h
        have hlast := @ih (c :: before) h
        rw [List.getLast?_eq_some_getLast hothers] at hlast
        rw [hlower, ← List.cons_append, List.getLast?_append, List.getLast?_eq_some_getLast hothers]
        exact hlast

/-! ## Stripped texts -/

theorem stripped_eq_self_iff {text : String} :
    Text.stripped text = text ↔
      text.toList.head?.any isBlank = false ∧ text.toList.getLast?.any isBlank = false := by
  rw [Text.stripped, Text.strip]
  constructor
  · intro hsame
    have hlist := congrArg String.toList hsame
    rw [String.toList_ofList] at hlist
    rw [← hlist]
    exact ⟨Text.head?_trim isBlank text.toList, Text.getLast?_trim isBlank text.toList⟩
  · rintro ⟨hfirst, hlast⟩
    rw [Text.trim_eq_self_of_ends hfirst hlast, String.ofList_toList]

/-- A text without blanks around it has none in lower case either. -/
theorem stripped_lower {text : String} (h : Text.stripped text = text) :
    Text.stripped (lower text) = lower text := by
  rw [stripped_eq_self_iff] at h ⊢
  rw [lower, String.toList_ofList]
  exact ⟨head?_lowerAfter h.1, getLast?_lowerAfter h.2⟩

end Lineage.Unicode
