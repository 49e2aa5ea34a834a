/-!
# First occurrences

Several results of this library are unique by some key, in the order in which the keys are first
met: the names that a parent's children are built from, the entities of a folder, the nodes and
edges of an exported graph.

## Main results

* `mem_firstsBy`: an element is kept exactly if it is the first with its key.
* `map_firstsBy_nodup`: no key occurs twice among the elements kept.
* `firstsBy_eq_self`: where no key occurs twice, every element is kept.
* `map_firstsBy`: keys that tell the same elements apart leave the same elements.
* `mem_firstsBy_id`, `firstsBy_id_pairwise_idxOf`: the distinct elements of a list are all its
  elements, in the order in which they first occur.
* `filter_firstsBy_id`: leaving out repetitions and filtering can be done in either order.
-/

namespace Lineage

/-- The elements whose key is neither in `seen` nor that of an earlier element. -/
def firstsFrom {α β : Type} [DecidableEq β] (key : α → β) (seen : List β) : List α → List α
  | [] => []
  | a :: as =>
      if key a ∈ seen then firstsFrom key seen as else a :: firstsFrom key (key a :: seen) as

/-- The elements whose key is not that of an earlier element. -/
def firstsBy {α β : Type} [DecidableEq β] (key : α → β) (as : List α) : List α :=
  firstsFrom key [] as

theorem mem_firstsFrom {α β : Type} [DecidableEq β] {key : α → β} {seen : List β} {as : List α}
    {a : α} :
    a ∈ firstsFrom key seen as ↔
      ∃ before after, as = before ++ a :: after ∧ key a ∉ seen ∧ key a ∉ before.map key := by
  induction as generalizing seen with
  | nil => simp [firstsFrom]
  | cons b as ih =>
      rw [firstsFrom]
      split
      · next known =>
          rw [ih]
          constructor
          · rintro ⟨before, after, rfl, hs, hb⟩
            refine ⟨b :: before, after, rfl, hs, ?_⟩
            simp only [List.map_cons, List.mem_cons, not_or]
            exact ⟨fun same => hs (same ▸ known), hb⟩
          · rintro ⟨before, after, split, hs, hb⟩
            cases before with
            | nil =>
                simp only [List.nil_append, List.cons.injEq] at split
                exact absurd (split.1 ▸ known) hs
            | cons c before =>
                simp only [List.cons_append, List.cons.injEq] at split
                simp only [List.map_cons, List.mem_cons, not_or] at hb
                exact ⟨before, after, split.2, hs, hb.2⟩
      · next new =>
          rw [List.mem_cons, ih]
          constructor
          · rintro (rfl | ⟨before, after, rfl, hs, hb⟩)
            · exact ⟨[], as, rfl, new, by simp⟩
            · simp only [List.mem_cons, not_or] at hs
              exact ⟨b :: before, after, rfl, hs.2, by simp [hs.1, hb]⟩
          · rintro ⟨before, after, split, hs, hb⟩
            cases before with
            | nil =>
                simp only [List.nil_append, List.cons.injEq] at split
                exact .inl split.1.symm
            | cons c before =>
                simp only [List.cons_append, List.cons.injEq] at split
                simp only [List.map_cons, List.mem_cons, not_or] at hb
                refine .inr ⟨before, after, split.2, ?_, hb.2⟩
                simp only [List.mem_cons, not_or]
                exact ⟨split.1 ▸ hb.1, hs⟩

theorem mem_firstsBy {α β : Type} [DecidableEq β] {key : α → β} {as : List α} {a : α} :
    a ∈ firstsBy key as ↔ ∃ before after, as = before ++ a :: after ∧ key a ∉ before.map key := by
  simp [firstsBy, mem_firstsFrom]

theorem map_firstsFrom_nodup {α β : Type} [DecidableEq β] (key : α → β) (seen : List β)
    (as : List α) : ((firstsFrom key seen as).map key).Nodup := by
  induction as generalizing seen with
  | nil => simp [firstsFrom]
  | cons a as ih =>
      rw [firstsFrom]
      split
      · exact ih seen
      · rw [List.map_cons, List.nodup_cons]
        refine ⟨?_, ih _⟩
        rw [List.mem_map]
        rintro ⟨b, member, same⟩
        obtain ⟨_, _, _, fresh, _⟩ := mem_firstsFrom.mp member
        exact fresh (by simp [same])

theorem map_firstsBy_nodup {α β : Type} [DecidableEq β] (key : α → β) (as : List α) :
    ((firstsBy key as).map key).Nodup :=
  map_firstsFrom_nodup key [] as

theorem firstsFrom_eq_self {α β : Type} [DecidableEq β] {key : α → β} {seen : List β} {as : List α}
    (h : (as.map key).Nodup) (hseen : ∀ a ∈ as, key a ∉ seen) : firstsFrom key seen as = as := by
  induction as generalizing seen with
  | nil => rfl
  | cons a as ih =>
      obtain ⟨hfresh, hothers⟩ := List.nodup_cons.mp h
      rw [firstsFrom, if_neg (hseen a List.mem_cons_self), ih hothers]
      intro b hb hmem
      rcases List.mem_cons.mp hmem with hsame | hmem
      · exact hfresh (hsame ▸ List.mem_map_of_mem hb)
      · exact hseen b (List.mem_cons_of_mem a hb) hmem

/-- Where no key occurs twice, every element is kept. -/
theorem firstsBy_eq_self {α β : Type} [DecidableEq β] {key : α → β} {as : List α}
    (h : (as.map key).Nodup) : firstsBy key as = as :=
  firstsFrom_eq_self h fun _ _ => List.not_mem_nil

theorem firstsFrom_sublist {α β : Type} [DecidableEq β] (key : α → β) (seen : List β)
    (as : List α) : (firstsFrom key seen as).Sublist as := by
  induction as generalizing seen with
  | nil => exact .slnil
  | cons a as ih =>
      rw [firstsFrom]
      split
      · exact (ih seen).cons a
      · exact (ih _).cons_cons a

theorem firstsBy_sublist {α β : Type} [DecidableEq β] (key : α → β) (as : List α) :
    (firstsBy key as).Sublist as :=
  firstsFrom_sublist key [] as

/-! ## Repetitions told by different keys -/

section

variable {α β γ : Type} [DecidableEq β] [DecidableEq γ] {key : α → β} {f : α → γ} {as : List α}

theorem map_firstsFrom {seen : List β} {seenAlso : List γ}
    (hkey : ∀ a ∈ as, ∀ b ∈ as, key a = key b ↔ f a = f b)
    (hseen : ∀ a ∈ as, key a ∈ seen ↔ f a ∈ seenAlso) :
    (firstsFrom key seen as).map f = firstsFrom id seenAlso (as.map f) := by
  induction as generalizing seen seenAlso with
  | nil => rfl
  | cons a as ih =>
      have ha : a ∈ a :: as := List.mem_cons_self
      have hothers : ∀ b ∈ as, b ∈ a :: as := fun b hb => List.mem_cons_of_mem a hb
      have hkeyOthers : ∀ b ∈ as, ∀ c ∈ as, key b = key c ↔ f b = f c :=
        fun b hb c hc => hkey b (hothers b hb) c (hothers c hc)
      rw [List.map_cons, firstsFrom, firstsFrom]
      by_cases hknown : key a ∈ seen
      · have hknownAlso : id (f a) ∈ seenAlso := (hseen a ha).mp hknown
        rw [if_pos hknown, if_pos hknownAlso]
        exact ih hkeyOthers fun b hb => hseen b (hothers b hb)
      · have hnewAlso : id (f a) ∉ seenAlso := mt (hseen a ha).mpr hknown
        rw [if_neg hknown, if_neg hnewAlso, List.map_cons]
        refine congrArg (f a :: ·) (ih hkeyOthers fun b hb => ?_)
        rw [List.mem_cons, List.mem_cons, hkey b (hothers b hb) a ha, hseen b (hothers b hb)]
        rfl

/-- If two keys tell the same elements apart, leaving out repetitions by the one and then taking the
other gives the distinct values of the other. -/
theorem map_firstsBy (hkey : ∀ a ∈ as, ∀ b ∈ as, key a = key b ↔ f a = f b) :
    (firstsBy key as).map f = firstsBy id (as.map f) :=
  map_firstsFrom hkey fun _ _ => iff_of_false List.not_mem_nil List.not_mem_nil

end

/-! ## The distinct elements of a list -/

variable {α : Type} [DecidableEq α]

@[simp, grind =] theorem mem_firstsBy_id {as : List α} {a : α} : a ∈ firstsBy id as ↔ a ∈ as := by
  simp only [mem_firstsBy, List.map_id_fun, id_eq]
  constructor
  · rintro ⟨before, after, rfl, -⟩
    simp
  · intro member
    obtain ⟨before, after, split, fresh⟩ := List.eq_append_cons_of_mem member
    exact ⟨before, after, split, fresh⟩

theorem firstsBy_id_nodup (as : List α) : (firstsBy id as).Nodup := by
  have distinct := map_firstsBy_nodup id as
  rwa [List.map_id_fun, id_eq] at distinct

theorem firstsFrom_id_pairwise_idxOf (seen as : List α) :
    (firstsFrom id seen as).Pairwise fun a b => as.idxOf a < as.idxOf b := by
  induction as generalizing seen with
  | nil => simp [firstsFrom]
  | cons c as ih =>
      -- Whatever is kept from the rest differs from `c` if `c` has been seen by then.
      have later : ∀ seen, c ∈ seen → ∀ a ∈ firstsFrom id seen as,
          (c :: as).idxOf a = as.idxOf a + 1 := by
        intro seen known a member
        obtain ⟨_, _, _, fresh, _⟩ := mem_firstsFrom.mp member
        have differ : c ≠ a := fun same => fresh (same ▸ known)
        rw [List.idxOf_cons, beq_false_of_ne differ, cond_false]
      rw [firstsFrom]
      split
      · next known =>
          refine (ih seen).imp_of_mem fun {a b} ha hb below => ?_
          rw [later seen known a ha, later seen known b hb]
          exact Nat.succ_lt_succ below
      · next new =>
          have known : c ∈ id c :: seen := List.mem_cons_self
          rw [List.pairwise_cons]
          constructor
          · intro b hb
            rw [later _ known b hb, List.idxOf_cons_self]
            exact Nat.succ_pos _
          · refine (ih (id c :: seen)).imp_of_mem fun {a b} ha hb below => ?_
            rw [later _ known a ha, later _ known b hb]
            exact Nat.succ_lt_succ below

theorem firstsFrom_id_concat (seen as : List α) (a : α) :
    firstsFrom id seen (as ++ [a]) =
      if a ∈ seen ∨ a ∈ as then firstsFrom id seen as else firstsFrom id seen as ++ [a] := by
  induction as generalizing seen with
  | nil => by_cases known : a ∈ seen <;> simp [firstsFrom, known]
  | cons b as ih =>
      rw [List.cons_append, firstsFrom, firstsFrom]
      by_cases known : b ∈ seen
      · have same : (a ∈ seen ∨ a ∈ b :: as) ↔ a ∈ seen ∨ a ∈ as := by
          constructor
          · rintro (h | h)
            · exact .inl h
            · rcases List.mem_cons.mp h with rfl | h
              · exact .inl known
              · exact .inr h
          · exact Or.imp_right (List.mem_cons_of_mem b)
        simp only [id_eq, if_pos known, ih, same]
      · have same : (a ∈ b :: seen ∨ a ∈ as) ↔ (a ∈ seen ∨ a ∈ b :: as) := by
          simp only [List.mem_cons, or_assoc, or_left_comm]
        simp only [id_eq, if_neg known, ih, same]
        split <;> rfl

/-- One more element at the end is kept exactly if it does not occur before. -/
theorem firstsBy_id_concat (as : List α) (a : α) :
    firstsBy id (as ++ [a]) = if a ∈ as then firstsBy id as else firstsBy id as ++ [a] := by
  rw [firstsBy, firstsFrom_id_concat]
  simp only [List.not_mem_nil, false_or]
  rfl

theorem filter_firstsFrom_id {keep : α → Bool} {seen seenAlso as : List α}
    (hseen : ∀ a ∈ as, keep a = true → (a ∈ seen ↔ a ∈ seenAlso)) :
    (firstsFrom id seen as).filter keep = firstsFrom id seenAlso (as.filter keep) := by
  induction as generalizing seen seenAlso with
  | nil => rfl
  | cons a as ih =>
      have hothers := fun b (hb : b ∈ as) => hseen b (List.mem_cons_of_mem a hb)
      have hfirst := hseen a List.mem_cons_self
      by_cases hkeep : keep a = true
      · simp only [List.filter_cons_of_pos hkeep, firstsFrom, id_eq]
        by_cases hknown : a ∈ seen
        · have hknownAlso : a ∈ seenAlso := (hfirst hkeep).mp hknown
          rw [if_pos hknown, if_pos hknownAlso]
          exact ih hothers
        · have hnewAlso : a ∉ seenAlso := mt (hfirst hkeep).mpr hknown
          rw [if_neg hknown, if_neg hnewAlso, List.filter_cons_of_pos hkeep]
          refine congrArg (a :: ·) (ih fun b hb hkeepOther => ?_)
          rw [List.mem_cons, List.mem_cons, hothers b hb hkeepOther]
      · simp only [List.filter_cons_of_neg hkeep, firstsFrom, id_eq]
        by_cases hknown : a ∈ seen
        · rw [if_pos hknown]
          exact ih hothers
        · rw [if_neg hknown, List.filter_cons_of_neg hkeep]
          refine ih fun b hb hkeepOther => ?_
          have hne : b ≠ a := by
            rintro rfl
            exact hkeep hkeepOther
          rw [List.mem_cons, or_iff_right hne, hothers b hb hkeepOther]

/-- What is kept of the distinct elements are the distinct elements of what is kept. -/
theorem filter_firstsBy_id (keep : α → Bool) (as : List α) :
    (firstsBy id as).filter keep = firstsBy id (as.filter keep) :=
  filter_firstsFrom_id fun _ _ _ => Iff.rfl

/-- The distinct elements stand in the order of their first occurrences. -/
theorem firstsBy_id_pairwise_idxOf (as : List α) :
    (firstsBy id as).Pairwise fun a b => as.idxOf a < as.idxOf b :=
  firstsFrom_id_pairwise_idxOf [] as

/-- The first list has the members of the second, in the order in which they first occur there, and
none of them twice. -/
structure FirstsOf (firsts all : List α) : Prop where
  mem_iff : ∀ a, a ∈ firsts ↔ a ∈ all
  ordered : firsts.Pairwise fun a b => all.idxOf a < all.idxOf b

theorem firstsOf_firstsBy_id (all : List α) : FirstsOf (firstsBy id all) all where
  mem_iff _ := mem_firstsBy_id
  ordered := firstsBy_id_pairwise_idxOf all

end Lineage
