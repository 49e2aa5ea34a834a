import Lineage.Unicode.Blank

/-!
# Texts as lists of characters

The lexical rules of this library run along a text character by character, so they work on lists
of characters; names, tags and lines are handed around as `String`. This module holds the few
operations on such lists that the rules share: what follows a given lead, whether a text occurs in
another, cutting at a separator and trimming.

## Main results

* `after?_eq_some_iff`: `after?` undoes `++`.
* `occurs_iff`: `occurs` decides the infix relation.
* `joinWith_fields`: cutting at a separator loses nothing.
* `infix_of_mem_fields`: the parts that a text is cut into stand in it.
* `fields_filter`: other characters can be left out before a text is cut or after it.
* `fields_intercalate`: parts without the separator are what a text made of them is cut into.
* `trim_append_of_ends`, `mem_trim_of_neg`, `trim_infix`, `trim_trim`: what trimming leaves.
-/

namespace Lineage.Text

/-- What follows `lead` in a text, or any other list, that starts with it. -/
def after? {α : Type} [DecidableEq α] : (lead text : List α) → Option (List α)
  | [], text => some text
  | _ :: _, [] => none
  | l :: lead, c :: text => if l = c then after? lead text else none

theorem after?_eq_some_iff {α : Type} [DecidableEq α] {lead text rest : List α} :
    after? lead text = some rest ↔ text = lead ++ rest := by
  fun_induction after? lead text with
  | case1 text => simp [eq_comm]
  | case2 => simp
  | case3 l lead text ih => simp [ih]
  | case4 l lead c text h =>
      simp only [List.cons_append, List.cons.injEq, reduceCtorEq, false_iff, not_and]
      intro same
      exact absurd same.symm h

@[simp] theorem after?_append {α : Type} [DecidableEq α] (lead rest : List α) :
    after? lead (lead ++ rest) = some rest :=
  after?_eq_some_iff.mpr rfl

/-- `part` occurs somewhere in the text. -/
def occurs (part : List Char) : (text : List Char) → Bool
  | [] => part.isEmpty
  | c :: text => (after? part (c :: text)).isSome || occurs part text

theorem occurs_iff {part text : List Char} : occurs part text = true ↔ part <:+: text := by
  induction text with
  | nil => simp [occurs]
  | cons c text ih =>
      rw [occurs, Bool.or_eq_true, ih, List.infix_cons_iff, Option.isSome_iff_exists]
      simp only [after?_eq_some_iff, List.prefix_iff_eq_append]
      constructor
      · rintro (⟨rest, h⟩ | h)
        · exact .inl (by simp [h])
        · exact .inr h
      · rintro (h | h)
        · exact .inl ⟨_, h.symm⟩
        · exact .inr h

/-- The parts of a text between the occurrences of a separator; never an empty list. -/
def fields (separator : Char) : (text : List Char) → List (List Char)
  | [] => [[]]
  | c :: text =>
      match fields separator text with
      | [] => [[c]]
      | first :: others =>
          if c = separator then [] :: first :: others else (c :: first) :: others

theorem fields_ne_nil (separator : Char) (text : List Char) : fields separator text ≠ [] := by
  cases text with
  | nil => simp [fields]
  | cons c text =>
      rw [fields]
      split
      · simp
      · split <;> simp

/-- A text without the separator is a part by itself. -/
theorem fields_eq_singleton {separator : Char} {text : List Char} (h : separator ∉ text) :
    fields separator text = [text] := by
  induction text with
  | nil => rfl
  | cons c text ih =>
      obtain ⟨hne, hothers⟩ := List.ne_and_not_mem_of_not_mem_cons h
      rw [fields, ih hothers]
      exact if_neg hne.symm

/-- The parts put together again, with the separator between them. -/
def joinWith (separator : Char) : List (List Char) → List Char
  | [] => []
  | [part] => part
  | part :: next :: others => part ++ separator :: joinWith separator (next :: others)

theorem joinWith_fields (separator : Char) (text : List Char) :
    joinWith separator (fields separator text) = text := by
  induction text with
  | nil => simp [fields, joinWith]
  | cons c text ih =>
      rw [fields]
      split
      · next none => exact absurd none (fields_ne_nil separator text)
      · next first others same =>
          rw [same] at ih
          split
          · next h => simp [joinWith, ih, h]
          · next h =>
              cases others with
              | nil => simpa [joinWith] using ih
              | cons next others => simpa [joinWith] using ih

theorem infix_joinWith {separator : Char} {part : List Char} {parts : List (List Char)}
    (h : part ∈ parts) : part <:+: joinWith separator parts := by
  induction parts with
  | nil => cases h
  | cons first others ih =>
      cases others with
      | nil =>
          rw [List.mem_singleton.mp h]
          exact List.infix_rfl
      | cons next others =>
          rw [joinWith]
          rcases List.mem_cons.mp h with rfl | h
          · exact (List.prefix_append _ _).isInfix
          · exact (List.infix_cons (ih h)).trans (List.suffix_append _ _).isInfix

/-- A part that a text is cut into stands in the text. -/
theorem infix_of_mem_fields {separator : Char} {part text : List Char}
    (h : part ∈ fields separator text) : part <:+: text := by
  have hinfix : part <:+: joinWith separator (fields separator text) := infix_joinWith h
  rwa [joinWith_fields] at hinfix

/-- Characters other than the separator can be left out before a text is cut or after it. -/
theorem fields_filter {separator : Char} {keep : Char → Bool} (h : keep separator = true)
    (text : List Char) :
    fields separator (text.filter keep) = (fields separator text).map (List.filter keep) := by
  induction text with
  | nil => rfl
  | cons c text ih =>
      obtain ⟨first, others, hfields⟩ := List.exists_cons_of_ne_nil (fields_ne_nil separator text)
      rw [hfields, List.map_cons] at ih
      by_cases hkeep : keep c = true
      · rw [List.filter_cons_of_pos hkeep, fields, fields, ih, hfields]
        by_cases hseparator : c = separator
        · simp [hseparator]
        · simp [hseparator, hkeep]
      · have hseparator : c ≠ separator := by
          rintro rfl
          exact hkeep h
        rw [List.filter_cons_of_neg hkeep, fields, ih, hfields]
        simp [hseparator, hkeep]

section

variable {separator : Char} {part text : List Char}

theorem fields_append_separator (h : separator ∉ part) (text : List Char) :
    fields separator (part ++ separator :: text) = part :: fields separator text := by
  obtain ⟨first, others, hfields⟩ := List.exists_cons_of_ne_nil (fields_ne_nil separator text)
  induction part with
  | nil =>
      rw [List.nil_append, fields, hfields]
      exact if_pos rfl
  | cons c part ih =>
      obtain ⟨hne, hothers⟩ := List.ne_and_not_mem_of_not_mem_cons h
      rw [List.cons_append, fields, ih hothers]
      exact if_neg hne.symm

theorem fields_intercalate {parts : List (List Char)} (hparts : parts ≠ [])
    (h : ∀ part ∈ parts, separator ∉ part) :
    fields separator ([separator].intercalate parts) = parts := by
  induction parts with
  | nil => exact absurd rfl hparts
  | cons part parts ih =>
      have hpart := h part List.mem_cons_self
      cases parts with
      | nil => rw [List.intercalate_singleton, fields_eq_singleton hpart]
      | cons next others =>
          have hothers := fun other hother => h other (List.mem_cons_of_mem part hother)
          rw [List.intercalate_cons_cons, List.append_assoc, List.singleton_append,
            fields_append_separator hpart, ih (List.cons_ne_nil _ _) hothers]

theorem separator_not_mem_of_mem_fields (h : part ∈ fields separator text) : separator ∉ part := by
  induction text generalizing part with
  | nil =>
      rw [List.mem_singleton.mp h]
      exact List.not_mem_nil
  | cons c text ih =>
      obtain ⟨first, others, hfields⟩ := List.exists_cons_of_ne_nil (fields_ne_nil separator text)
      rw [fields, hfields] at h
      rw [hfields] at ih
      simp only at h
      split at h
      · rcases List.mem_cons.mp h with rfl | h
        · exact List.not_mem_nil
        · exact ih h
      · next hne =>
          rcases List.mem_cons.mp h with rfl | h
          · exact List.not_mem_cons_of_ne_of_not_mem (Ne.symm hne) (ih List.mem_cons_self)
          · exact ih (List.mem_cons_of_mem first h)

/-- What stands in parts with separators between them stands in a separator or in a part. -/
theorem of_mem_intercalate {between : List Char} {parts : List (List Char)} {c : Char}
    (member : c ∈ between.intercalate parts) :
    c ∈ between ∨ ∃ part ∈ parts, c ∈ part := by
  induction parts with
  | nil => cases member
  | cons first parts ih =>
      cases parts with
      | nil =>
          rw [List.intercalate_singleton] at member
          exact .inr ⟨first, List.mem_cons_self, member⟩
      | cons next others =>
          rw [List.intercalate_cons_cons, List.mem_append, List.mem_append] at member
          rcases member with (inFirst | inSeparator) | inOthers
          · exact .inr ⟨first, List.mem_cons_self, inFirst⟩
          · exact .inl inSeparator
          · rcases ih inOthers with inSeparator | ⟨part, hpart, inPart⟩
            · exact .inl inSeparator
            · exact .inr ⟨part, List.mem_cons_of_mem _ hpart, inPart⟩

end

/--
The parts of a text between the occurrences of a separator of any length, of which the first
`covered` characters of the text belong to the one found last.
-/
def piecesFrom (separator : List Char) : (covered : Nat) → (text : List Char) → List (List Char)
  | _, [] => [[]]
  | covered + 1, _ :: text => piecesFrom separator covered text
  | 0, c :: text =>
      match after? separator (c :: text) with
      | some _ => [] :: piecesFrom separator (separator.length - 1) text
      | none =>
          match piecesFrom separator 0 text with
          | [] => [[c]]
          | first :: others => (c :: first) :: others

/-- The parts of a text between the occurrences of a separator of any length. -/
def pieces (separator text : List Char) : List (List Char) := piecesFrom separator 0 text

/-- The number of backslashes that a text ends in. -/
def finalBackslashes (text : List Char) : Nat := (text.reverse.takeWhile (· = '\\')).length

/-- The lines of a text, without their line feeds. -/
def lines (text : List Char) : List (List Char) := fields '\n' text

/-- The text without the characters of a class at either end. -/
def trim (among : Char → Bool) (text : List Char) : List Char :=
  ((text.dropWhile among).reverse.dropWhile among).reverse

section

variable {among : Char → Bool} {lead body tail text : List Char} {c : Char}

/-- The ends go, up to a part that does not start or end in a character of the class. -/
theorem trim_append_of_ends (ahead : ∀ c ∈ lead, among c = true)
    (first : body.head?.any among = false) (last : body.getLast?.any among = false)
    (behind : ∀ c ∈ tail, among c = true) : trim among (lead ++ (body ++ tail)) = body := by
  have away : ∀ c ∈ tail.reverse, among c = true := by
    intro c member
    exact behind c (List.mem_reverse.mp member)
  rw [trim, List.dropWhile_append_of_pos ahead]
  cases body with
  | nil =>
      have gone : (tail ++ []).dropWhile among = [].dropWhile among :=
        List.dropWhile_append_of_pos behind
      rw [List.append_nil] at gone
      rw [List.nil_append, gone]
      rfl
  | cons c body =>
      have outside : among c = false := by simpa using first
      have stays : (c :: body ++ tail).dropWhile among = c :: body ++ tail :=
        List.dropWhile_cons_of_neg (by simp [outside])
      rw [stays, List.reverse_append, List.dropWhile_append_of_pos away]
      rw [← List.head?_reverse] at last
      cases split : (c :: body).reverse with
      | nil => simp at split
      | cons d others =>
          rw [split] at last
          have end_outside : among d = false := by simpa using last
          rw [List.dropWhile_cons_of_neg (by simp [end_outside]), ← split, List.reverse_reverse]

/-- The ends go, up to a part without characters of the class. -/
theorem trim_append (ahead : ∀ c ∈ lead, among c = true) (inside : ∀ c ∈ body, among c = false)
    (behind : ∀ c ∈ tail, among c = true) : trim among (lead ++ (body ++ tail)) = body := by
  refine trim_append_of_ends ahead ?_ ?_ behind
  · cases body with
    | nil => rfl
    | cons c body => simpa using inside c List.mem_cons_self
  · cases last : body.getLast? with
    | none => rfl
    | some c => simpa using inside c (List.mem_of_getLast? last)

theorem trim_eq_self (inside : ∀ c ∈ text, among c = false) : trim among text = text := by
  have whole : trim among ([] ++ (text ++ [])) = text :=
    trim_append (fun _ h => nomatch h) inside (fun _ h => nomatch h)
  rwa [List.nil_append, List.append_nil] at whole

theorem trim_prefix_dropWhile (among : Char → Bool) (text : List Char) :
    trim among text <+: text.dropWhile among := by
  rw [← List.reverse_suffix, trim, List.reverse_reverse]
  exact List.dropWhile_suffix among

/-- What is left is a part of the text. -/
theorem trim_infix (among : Char → Bool) (text : List Char) : trim among text <:+: text :=
  (trim_prefix_dropWhile among text).isInfix.trans (List.dropWhile_suffix among).isInfix

/-- What is left does not start in the class. -/
theorem head?_trim (among : Char → Bool) (text : List Char) :
    (trim among text).head?.any among = false := by
  have outside := List.head?_dropWhile_not among text
  obtain ⟨tail, split⟩ := trim_prefix_dropWhile among text
  cases rest : trim among text with
  | nil => rfl
  | cons c body =>
      rw [rest] at split
      rw [← split] at outside
      simpa using outside

/-- What is left does not end in the class. -/
theorem getLast?_trim (among : Char → Bool) (text : List Char) :
    (trim among text).getLast?.any among = false := by
  have outside := List.head?_dropWhile_not among (text.dropWhile among).reverse
  rw [trim, List.getLast?_reverse]
  cases rest : ((text.dropWhile among).reverse.dropWhile among).head? with
  | none => rfl
  | some c =>
      rw [rest] at outside
      simpa using outside

/-- A text stays as it is if neither end is in the class. -/
theorem trim_eq_self_of_ends (first : text.head?.any among = false)
    (last : text.getLast?.any among = false) : trim among text = text := by
  have whole : trim among ([] ++ (text ++ [])) = text :=
    trim_append_of_ends (fun _ h => nomatch h) first last fun _ h => nomatch h
  rwa [List.nil_append, List.append_nil] at whole

/-- What is left has neither end in the class, so nothing more goes. -/
theorem trim_trim (among : Char → Bool) (text : List Char) :
    trim among (trim among text) = trim among text :=
  trim_eq_self_of_ends (head?_trim among text) (getLast?_trim among text)

theorem mem_dropWhile_of_neg (member : c ∈ text) (outside : among c = false) :
    c ∈ text.dropWhile among := by
  induction text with
  | nil => cases member
  | cons d text ih =>
      rw [List.dropWhile_cons]
      split
      · next inside =>
          have differ : c ≠ d := by
            rintro rfl
            rw [outside] at inside
            cases inside
          exact ih (List.mem_of_ne_of_mem differ member)
      · exact member

/-- What is not of the class stays. -/
theorem mem_trim_of_neg (member : c ∈ text) (outside : among c = false) : c ∈ trim among text := by
  have first := mem_dropWhile_of_neg member outside
  have last := mem_dropWhile_of_neg (List.mem_reverse.mpr first) outside
  exact List.mem_reverse.mpr last

end

/-- The characters without the blanks at either end. -/
def strip (text : List Char) : List Char := trim Unicode.isBlank text

/-- The text without the blanks at either end. -/
def stripped (text : String) : String :=
  String.ofList (strip text.toList)

theorem stripped_stripped (text : String) : stripped (stripped text) = stripped text := by
  rw [stripped, stripped, strip, strip, String.toList_ofList, trim_trim]

end Lineage.Text
