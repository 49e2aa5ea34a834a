import Lineage.Proofs.Lexical.Position
import Mathlib.Data.List.Perm.Subperm

/-!
# What a scan passes over

A scan takes the matches of a rule from left to right and goes on behind each match that it has
taken.  So what it takes is a selection: a match of the rule is passed over only if it starts inside
of an earlier match that was taken.  Matches are told apart here by where they start, as one name
may be found at many positions of a text.

A rule none of whose matches starts inside of another loses nothing by being scanned for.  Whether
a rule is such can be checked on the form of its matches alone, without reference to the scan.

## Main results

* `mem_spotsFrom_iff`, `pairwise_spotsFrom`: what `spotsFrom` lists, and in which order.
* `selects_taken`: a scan leaves out only what starts inside of something that it takes.
* `allMatches_eq_map_spots`: a scan takes everything if no match starts inside of another.
* `matchesFrom_append`, `matchesFrom_of_eq_some`: a scan of a text that is put together from parts.
* `firstMatch?_eq_some_iff`: the first match is the one that has none before it.
-/

namespace Lineage.Lexical

variable {α : Type}

/-! ## Matches and where they start -/

/-- What a rule finds at the characters of a text, each with its position, the first character being
at `start`. -/
def spotsFrom (rule : Rule (Option (Found α))) :
    (start : Nat) → (before : Option Char) → (text : List Char) → List (Nat × Found α)
  | _, _, [] => []
  | start, before, c :: text =>
      ((rule before (c :: text)).map fun found => (start, found)).toList ++
        spotsFrom rule (start + 1) (some c) text

/-- What a scan takes, each match with its position: `matchesFrom` with positions. -/
def takenFrom (rule : Rule (Option (Found α))) :
    (covered start : Nat) → (before : Option Char) → (text : List Char) → List (Nat × Found α)
  | _, _, _, [] => []
  | covered + 1, start, _, c :: text => takenFrom rule covered (start + 1) (some c) text
  | 0, start, before, c :: text =>
      match rule before (c :: text) with
      | some found => (start, found) :: takenFrom rule (found.length - 1) (start + 1) (some c) text
      | none => takenFrom rule 0 (start + 1) (some c) text

variable {rule : Rule (Option (Found α))} {before : Option Char} {text : List Char}

theorem mem_spotsFrom_iff {start : Nat} {spot : Nat × Found α} :
    spot ∈ spotsFrom rule start before text ↔
      ∃ lead here, text = lead ++ here ∧ here ≠ [] ∧ spot.1 = start + lead.length ∧
        rule (charBefore before lead) here = some spot.2 := by
  induction text generalizing start before with
  | nil => simp [spotsFrom]
  | cons c text ih =>
      have hfirst : spot ∈ ((rule before (c :: text)).map fun found => (start, found)).toList ↔
          spot.1 = start ∧ rule before (c :: text) = some spot.2 := by
        cases hrule : rule before (c :: text) <;> simp [Prod.ext_iff, eq_comm]
      rw [spotsFrom, List.mem_append, hfirst, ih]
      constructor
      · rintro (⟨hstart, hrule⟩ | ⟨lead, here, rfl, hne, hstart, hrule⟩)
        · exact ⟨[], c :: text, rfl, by simp, hstart, hrule⟩
        · exact ⟨c :: lead, here, rfl, hne, by simp; omega, by rwa [charBefore_cons]⟩
      · rintro ⟨lead, here, hcut, hne, hstart, hrule⟩
        cases lead with
        | nil =>
            rw [List.nil_append] at hcut
            subst hcut
            exact .inl ⟨hstart, hrule⟩
        | cons d lead =>
            rw [List.cons_append, List.cons.injEq] at hcut
            obtain ⟨rfl, rfl⟩ := hcut
            rw [charBefore_cons] at hrule
            exact .inr ⟨lead, here, rfl, hne, by simp at hstart; omega, hrule⟩

theorem le_of_mem_spotsFrom {start : Nat} {spot : Nat × Found α}
    (h : spot ∈ spotsFrom rule start before text) : start ≤ spot.1 := by
  obtain ⟨lead, here, -, -, hstart, -⟩ := mem_spotsFrom_iff.mp h
  omega

/-- The spots are in the order of the text, and no two of them start at the same character. -/
theorem pairwise_spotsFrom (rule : Rule (Option (Found α))) (start : Nat) (before : Option Char)
    (text : List Char) :
    (spotsFrom rule start before text).Pairwise fun spot other => spot.1 < other.1 := by
  induction text generalizing start before with
  | nil => exact .nil
  | cons c text ih =>
      have hlater : ∀ spot ∈ spotsFrom rule (start + 1) (some c) text, start < spot.1 :=
        fun spot hspot => le_of_mem_spotsFrom hspot
      rw [spotsFrom]
      cases hrule : rule before (c :: text) with
      | none => simpa [hrule] using ih (start + 1) (some c)
      | some found => simpa [hrule] using ⟨fun p f => hlater (p, f), ih (start + 1) (some c)⟩

/-- The spots are what the rule finds at the numbers of the characters. -/
theorem spotsFrom_eq_filterMap (rule : Rule (Option (Found α))) (start : Nat)
    (before : Option Char) (text : List Char) :
    spotsFrom rule start before text = (List.range text.length).filterMap fun i =>
      (rule (charBefore before (text.take i)) (text.drop i)).map fun found =>
        (start + i, found) := by
  induction text generalizing start before with
  | nil => rfl
  | cons c text ih =>
      rw [spotsFrom, ih, List.length_cons, List.range_succ_eq_map, List.filterMap_cons,
        List.filterMap_map]
      have hlater : ∀ i, start + 1 + i = start + (i + 1) := fun i => by omega
      cases hrule : rule before (c :: text) <;> simp [hrule, hlater]

/-! ## Matches that are taken -/

theorem map_takenFrom (rule : Rule (Option (Found α))) (covered start : Nat)
    (before : Option Char) (text : List Char) :
    (takenFrom rule covered start before text).map (fun spot => spot.2.value) =
      matchesFrom rule covered before text := by
  induction text generalizing covered start before with
  | nil => simp [takenFrom, matchesFrom]
  | cons c text ih =>
      cases covered with
      | succ covered => simp [takenFrom, matchesFrom, ih]
      | zero =>
          cases hrule : rule before (c :: text) <;> simp [takenFrom, matchesFrom, hrule, ih]

theorem takenFrom_sublist (rule : Rule (Option (Found α))) (covered start : Nat)
    (before : Option Char) (text : List Char) :
    (takenFrom rule covered start before text).Sublist (spotsFrom rule start before text) := by
  induction text generalizing covered start before with
  | nil => simp [takenFrom]
  | cons c text ih =>
      have hskip (covered : Nat) : (takenFrom rule covered (start + 1) (some c) text).Sublist
          (spotsFrom rule start before (c :: text)) :=
        (ih covered (start + 1) (some c)).trans (List.sublist_append_right _ _)
      cases covered with
      | succ covered => exact hskip covered
      | zero =>
          cases hrule : rule before (c :: text) with
          | none => simpa [takenFrom, hrule] using hskip 0
          | some found => simpa [takenFrom, spotsFrom, hrule] using ih _ (start + 1) (some c)

/-- The spot starts inside of the other one, behind its first character. -/
def Inside (spot other : Nat × Found α) : Prop :=
  other.1 < spot.1 ∧ spot.1 < other.1 + other.2.length

/-- A scan passes over a spot only if it starts inside of a match: of one that is taken, or of the
one whose last characters the scan starts with. -/
theorem mem_or_inside_takenFrom (covered : Nat) {start : Nat} {spot : Nat × Found α}
    (h : spot ∈ spotsFrom rule start before text) :
    spot.1 < start + covered ∨ spot ∈ takenFrom rule covered start before text ∨
      ∃ other ∈ takenFrom rule covered start before text, Inside spot other := by
  induction text generalizing covered start before with
  | nil => simp [spotsFrom] at h
  | cons c text ih =>
      rw [spotsFrom, List.mem_append] at h
      cases covered with
      | succ covered =>
          rcases h with hfirst | hlater
          · have hstart : spot.1 = start := by
              cases hrule : rule before (c :: text) <;> simp [hrule] at hfirst
              simp [hfirst]
            omega
          · have hothers := ih covered hlater
            rwa [show start + 1 + covered = start + (covered + 1) by omega] at hothers
      | zero =>
          cases hrule : rule before (c :: text) with
          | none =>
              have hlater : spot ∈ spotsFrom rule (start + 1) (some c) text := by
                simpa [hrule] using h
              have hafter := le_of_mem_spotsFrom hlater
              have hothers := (ih 0 hlater).resolve_left (by omega)
              simpa [takenFrom, hrule] using Or.inr hothers
          | some found =>
              have hcases : spot = (start, found) ∨
                  spot ∈ spotsFrom rule (start + 1) (some c) text := by simpa [hrule] using h
              simp only [takenFrom, hrule]
              rcases hcases with rfl | hlater
              · exact .inr (.inl List.mem_cons_self)
              · have hafter := le_of_mem_spotsFrom hlater
                rcases ih (found.length - 1) hlater with hinside | htaken | hother
                · refine .inr (.inr ⟨(start, found), List.mem_cons_self, ?_⟩)
                  unfold Inside
                  dsimp only
                  omega
                · exact .inr (.inl (List.mem_cons_of_mem _ htaken))
                · obtain ⟨other, hmem, hinside⟩ := hother
                  exact .inr (.inr ⟨other, List.mem_cons_of_mem _ hmem, hinside⟩)

/-- What is taken is some of what there is, in the same order, and leaves out only what starts
inside of something taken. -/
structure Selects (taken all : List (Nat × Found α)) : Prop where
  sublist : taken.Sublist all
  mem_or_inside : ∀ spot ∈ all, spot ∈ taken ∨ ∃ other ∈ taken, Inside spot other

/-- The spots of a rule in a whole text. -/
def spots (rule : Rule (Option (Found α))) (text : List Char) : List (Nat × Found α) :=
  spotsFrom rule 0 none text

/-- What a scan of a whole text takes. -/
def taken (rule : Rule (Option (Found α))) (text : List Char) : List (Nat × Found α) :=
  takenFrom rule 0 0 none text

theorem selects_taken (rule : Rule (Option (Found α))) (text : List Char) :
    Selects (taken rule text) (spots rule text) where
  sublist := takenFrom_sublist rule 0 0 none text
  mem_or_inside _ h := (mem_or_inside_takenFrom 0 h).resolve_left (by omega)

theorem map_taken (rule : Rule (Option (Found α))) (text : List Char) :
    (taken rule text).map (fun spot => spot.2.value) = allMatches rule text :=
  map_takenFrom rule 0 0 none text

/-- Two spots of which one starts inside of the other, as matches at two positions of the text. -/
theorem exists_cut_of_inside {spot other : Nat × Found α} (hspot : spot ∈ spots rule text)
    (hother : other ∈ spots rule text) (hinside : Inside spot other) :
    ∃ before more here, more ≠ [] ∧ more.length < other.2.length ∧
      rule before (more ++ here) = some other.2 ∧
      rule (charBefore before more) here = some spot.2 := by
  obtain ⟨lead, here, hcut, -, hstart, hrule⟩ := mem_spotsFrom_iff.mp hspot
  obtain ⟨earlier, there, hcutOther, -, hstartOther, hruleOther⟩ := mem_spotsFrom_iff.mp hother
  obtain ⟨hbehind, hwithin⟩ := hinside
  have hless : earlier.length < lead.length := by omega
  have hearlier : earlier <+: text := ⟨there, hcutOther.symm⟩
  have hlead : lead <+: text := ⟨here, hcut.symm⟩
  obtain ⟨more, rfl⟩ := List.prefix_of_prefix_length_le hearlier hlead (by omega)
  rw [List.length_append] at hless hstart
  have hthere : there = more ++ here := by
    rw [hcut, List.append_assoc] at hcutOther
    exact (List.append_cancel_left hcutOther).symm
  rw [charBefore_append] at hrule
  refine ⟨charBefore none earlier, more, here, ?_, by omega, hthere ▸ hruleOther, hrule⟩
  exact List.ne_nil_of_length_pos (by omega)

/-- No match of the rule in the text starts inside of another. -/
def Apart (rule : Rule (Option (Found α))) (text : List Char) : Prop :=
  ∀ spot ∈ spots rule text, ∀ other ∈ spots rule text, ¬ Inside spot other

/-- The matches are apart if the rule recognises nothing inside of what it recognises. -/
theorem apart_of_rule (h : ∀ before more here found, more ≠ [] → more.length < found.length →
    rule before (more ++ here) = some found → rule (charBefore before more) here = none)
    (text : List Char) : Apart rule text := by
  intro spot hspot other hother hinside
  obtain ⟨before, more, here, hne, hlength, houter, hinner⟩ :=
    exists_cut_of_inside hspot hother hinside
  rw [h before more here other.2 hne hlength houter] at hinner
  cases hinner

theorem taken_eq_spots (h : Apart rule text) : taken rule text = spots rule text := by
  have hselects := selects_taken rule text
  have hnodup : (spots rule text).Nodup :=
    (pairwise_spotsFrom rule 0 none text).imp fun hless hsame => by simp [hsame] at hless
  have hsubset : spots rule text ⊆ taken rule text := by
    intro spot hspot
    rcases hselects.mem_or_inside spot hspot with htaken | ⟨other, hother, hinside⟩
    · exact htaken
    · exact absurd hinside (h spot hspot other (hselects.sublist.subset hother))
  exact hselects.sublist.eq_of_length_le (List.subperm_of_subset hnodup hsubset).length_le

/-- A scan for a rule whose matches are apart takes all of them. -/
theorem allMatches_eq_map_spots (h : Apart rule text) :
    allMatches rule text = (spots rule text).map fun spot => spot.2.value := by
  rw [← map_taken, taken_eq_spots h]

/-! ## Texts in parts -/

section Parts

variable {lead part here : List Char} {value : α}

/-- The characters that a match covers are passed over. -/
theorem matchesFrom_covered (rule : Rule (Option (Found α))) (part here : List Char) :
    ∀ before, matchesFrom rule part.length before (part ++ here) =
      matchesFrom rule 0 (charBefore before part) here := by
  induction part with
  | nil =>
      intro before
      rfl
  | cons c part ih =>
      intro before
      rw [charBefore_cons, ← ih]
      rfl

/-- A match that starts the text is taken, and the scan goes on behind it. -/
theorem matchesFrom_of_eq_some (hne : part ≠ [])
    (h : rule before (part ++ here) = some ⟨value, part.length⟩) :
    matchesFrom rule 0 before (part ++ here) =
      value :: matchesFrom rule 0 (charBefore before part) here := by
  obtain ⟨c, others, rfl⟩ := List.exists_cons_of_ne_nil hne
  rw [charBefore_cons, ← matchesFrom_covered rule others here (some c)]
  rw [List.cons_append] at h ⊢
  simp [matchesFrom, h]

/-- Where a rule finds nothing, the scan goes on. -/
theorem matchesFrom_append (h : ∀ earlier more, lead = earlier ++ more → more ≠ [] →
      rule (charBefore before earlier) (more ++ here) = none) :
    matchesFrom rule 0 before (lead ++ here) =
      matchesFrom rule 0 (charBefore before lead) here := by
  induction lead generalizing before with
  | nil => rfl
  | cons c lead ih =>
      have hnone : rule before (c :: (lead ++ here)) = none := h [] (c :: lead) rfl (by simp)
      rw [charBefore_cons, ← ih]
      · simp [matchesFrom, hnone]
      · intro earlier more hlead hne
        have hthere := h (c :: earlier) more (by rw [hlead, List.cons_append]) hne
        rwa [charBefore_cons] at hthere

end Parts

/-! ## The first match -/

section FirstMatch

variable {first : Rule (Option α)} {value : α}

theorem firstMatch?_of_eq_some (h : first before text = some value) :
    firstMatch? first before text = some value := by
  cases text with
  | nil => exact h
  | cons c text => rw [firstMatch?, h]

/-- Where a rule finds nothing, the search for its first match goes on. -/
theorem firstMatch?_append {lead here : List Char}
    (h : ∀ earlier more, lead = earlier ++ more → more ≠ [] →
      first (charBefore before earlier) (more ++ here) = none) :
    firstMatch? first before (lead ++ here) = firstMatch? first (charBefore before lead) here := by
  induction lead generalizing before with
  | nil => rfl
  | cons c lead ih =>
      have hnone : first before (c :: (lead ++ here)) = none := h [] (c :: lead) rfl (by simp)
      have hothers : firstMatch? first (some c) (lead ++ here) =
          firstMatch? first (charBefore (some c) lead) here := by
        apply ih
        intro earlier more hlead hne
        have hthere := h (c :: earlier) more (by rw [hlead, List.cons_append]) hne
        rwa [charBefore_cons] at hthere
      rw [List.cons_append, firstMatch?, hnone, charBefore_cons]
      exact hothers

/-- The first match is found at the first position at which the rule finds anything. -/
theorem firstMatch?_eq_some_iff :
    firstMatch? first before text = some value ↔
      ∃ lead here, text = lead ++ here ∧ first (charBefore before lead) here = some value ∧
        ∀ earlier more, lead = earlier ++ more → more ≠ [] →
          first (charBefore before earlier) (more ++ here) = none := by
  constructor
  · intro h
    induction text generalizing before with
    | nil => exact ⟨[], [], rfl, h, by simp +contextual⟩
    | cons c text ih =>
        rw [firstMatch?] at h
        cases hrule : first before (c :: text) with
        | some found =>
            have hsame : found = value := by simpa [hrule] using h
            exact ⟨[], c :: text, rfl, by rw [charBefore_nil, hrule, hsame], by simp +contextual⟩
        | none =>
            rw [hrule] at h
            obtain ⟨lead, here, rfl, hfound, hnone⟩ := ih h
            refine ⟨c :: lead, here, rfl, by rwa [charBefore_cons], ?_⟩
            intro earlier more hlead hne
            cases earlier with
            | nil =>
                rw [List.nil_append] at hlead
                rwa [← hlead, charBefore_nil]
            | cons d earlier =>
                rw [List.cons_append, List.cons.injEq] at hlead
                obtain ⟨rfl, hlead⟩ := hlead
                rw [charBefore_cons]
                exact hnone earlier more hlead hne
  · rintro ⟨lead, here, rfl, hfound, hnone⟩
    rw [firstMatch?_append hnone, firstMatch?_of_eq_some hfound]

/-- The search finds something if the rule does so at any position. -/
theorem isSome_firstMatch?_iff :
    (firstMatch? first before text).isSome = true ↔
      ∃ lead here, text = lead ++ here ∧ (first (charBefore before lead) here).isSome = true := by
  constructor
  · intro h
    obtain ⟨value, hvalue⟩ := Option.isSome_iff_exists.mp h
    obtain ⟨lead, here, hcut, hfound⟩ := exists_of_firstMatch? hvalue
    exact ⟨lead, here, hcut, by simp [hfound]⟩
  · rintro ⟨lead, here, rfl, hfound⟩
    induction lead generalizing before with
    | nil =>
        obtain ⟨value, hvalue⟩ := Option.isSome_iff_exists.mp hfound
        rw [charBefore_nil] at hvalue
        rw [List.nil_append, firstMatch?_of_eq_some hvalue]
        rfl
    | cons c lead ih =>
        rw [charBefore_cons] at hfound
        rw [List.cons_append, firstMatch?]
        split
        · rfl
        · exact ih hfound

end FirstMatch

end Lineage.Lexical
