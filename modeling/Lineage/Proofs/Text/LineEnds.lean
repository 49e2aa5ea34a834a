import Lineage.Proofs.Text.Decoding
import Lineage.Text.Basic
import Lineage.Text.Newlines

/-!
# Line ends of decoded bytes

The line ends of a source file are folded after its bytes are decoded.  They could as well be folded
before, in the bytes: carriage returns and line feeds are ASCII, so they are shown as they are, and
two of them stand side by side among the characters exactly if they do so among the bytes.  It
follows that what is malformed in a file changes neither the ASCII characters of its lines nor the
number of the lines.

## Main results

* `foldNewlines_eq_foldEnds`: the line ends are folded in one way, in bytes and in characters.
* `Shows.foldEnds`: bytes with their line ends folded are shown by the folded characters.
* `filter_isAscii_ofSourceBytes`: the ASCII characters of the text of a source file.
-/

namespace Lineage.Text

/-! ## Folding -/

section

variable {α : Type} [DecidableEq α] {carriage feed : α} {part as : List α}

/-- The list with one feed for each carriage and each pair of a carriage and a feed. -/
def foldEnds (carriage feed : α) : List α → List α
  | [] => []
  | a :: as =>
      if a = carriage then
        if as.head? = some feed then foldEnds carriage feed as
        else feed :: foldEnds carriage feed as
      else a :: foldEnds carriage feed as

theorem foldEnds_cons_of_ne {a : α} (h : a ≠ carriage) :
    foldEnds carriage feed (a :: as) = a :: foldEnds carriage feed as :=
  if_neg h

theorem foldEnds_carriage :
    foldEnds carriage feed (carriage :: as) =
      if as.head? = some feed then foldEnds carriage feed as
      else feed :: foldEnds carriage feed as :=
  if_pos rfl

theorem foldEnds_append (h : carriage ∉ part) :
    foldEnds carriage feed (part ++ as) = part ++ foldEnds carriage feed as := by
  induction part with
  | nil => rfl
  | cons a part ih =>
      obtain ⟨hne, hpart⟩ := List.ne_and_not_mem_of_not_mem_cons h
      rw [List.cons_append, foldEnds_cons_of_ne hne.symm, ih hpart, List.cons_append]

theorem foldEnds_eq_self (h : carriage ∉ as) : foldEnds carriage feed as = as := by
  have happend : foldEnds carriage feed (as ++ []) = as ++ [] := foldEnds_append h
  rwa [List.append_nil] at happend

theorem carriage_not_mem_foldEnds (h : carriage ≠ feed) (as : List α) :
    carriage ∉ foldEnds carriage feed as := by
  induction as with
  | nil => exact List.not_mem_nil
  | cons a as ih =>
      rw [foldEnds]
      split
      · split
        · exact ih
        · exact List.not_mem_cons_of_ne_of_not_mem h ih
      · next hne => exact List.not_mem_cons_of_ne_of_not_mem (Ne.symm hne) ih

end

theorem foldNewlines_eq_foldEnds (text : List Char) :
    foldNewlines text = foldEnds '\r' '\n' text := by
  fun_induction foldNewlines text with
  | case1 text ih =>
      rw [foldEnds_carriage, if_pos List.head?_cons, foldEnds_cons_of_ne (by decide), ih]
  | case2 c text hpair ih =>
      rw [foldEnds, ih]
      by_cases hcarriage : c = '\r'
      · have hfeed : text.head? ≠ some '\n' := by
          intro hhead
          obtain ⟨others, rfl⟩ := List.head?_eq_some_iff.mp hhead
          exact hpair others hcarriage rfl
        rw [if_pos hcarriage, if_pos hcarriage, if_neg hfeed]
      · rw [if_neg hcarriage, if_neg hcarriage]
  | case3 => rfl

/-! ## Bytes and the characters that show them -/

namespace Utf8

variable {bytes : List UInt8} {chars : List Char} {byte : UInt8}

theorem toNat_asciiChar (h : isAsciiByte byte = true) : (asciiChar byte).toNat = byte.toNat := by
  have hlt : byte.toNat < 0x80 := of_decide_eq_true h
  have hvalid : byte.toNat.isValidChar := .inl (by omega)
  exact toNat_ofNat hvalid

theorem isAscii_asciiChar (h : isAsciiByte byte = true) : isAscii (asciiChar byte) = true := by
  rw [isAscii, toNat_asciiChar h]
  exact h

/-- The byte of an ASCII character is the only one that is shown as it. -/
theorem asciiChar_eq_iff (h : isAsciiByte byte = true) {c : Char} {other : UInt8}
    (hother : other.toNat = c.toNat) : asciiChar byte = c ↔ byte = other := by
  rw [← UInt8.toNat_inj, hother]
  constructor
  · rintro rfl
    exact (toNat_asciiChar h).symm
  · intro hsame
    rw [asciiChar, hsame, Char.ofNat_toNat]

theorem not_mem_of_isStretch {α : Type} {among : α → Bool} {part : List α}
    (h : IsStretchWithout among part) {a : α} (ha : among a = true) : a ∉ part := by
  intro hmem
  rw [h.outside a hmem] at ha
  cases ha

theorem head?_append_of_isStretch {α : Type} {among : α → Bool} {part as : List α}
    (h : IsStretchWithout among part) {a : α} (ha : among a = true) :
    (part ++ as).head? ≠ some a := by
  intro hhead
  cases part with
  | nil => exact h.ne_nil rfl
  | cons first part =>
      obtain rfl : first = a := Option.some.inj hhead
      exact not_mem_of_isStretch h ha List.mem_cons_self

theorem filter_append_of_isStretch {α : Type} {among : α → Bool} {part : List α}
    (h : IsStretchWithout among part) (as : List α) :
    (part ++ as).filter among = as.filter among := by
  have hnone : part.filter among = [] :=
    List.filter_eq_nil_iff.mpr fun a ha => by simp [h.outside a ha]
  rw [List.filter_append, hnone, List.nil_append]

namespace Shows

/-- An ASCII character stands in front exactly if its byte does. -/
theorem head?_eq_iff (h : Shows bytes chars) {c : Char} {other : UInt8}
    (hascii : isAsciiByte other = true) (hother : other.toNat = c.toNat) :
    chars.head? = some c ↔ bytes.head? = some other := by
  have hchar : isAscii c = true := by
    rw [isAscii, ← hother]
    exact hascii
  cases h with
  | nil => exact iff_of_false (Option.some_ne_none c).symm (Option.some_ne_none other).symm
  | ascii hbyte _ =>
      rw [List.head?_cons, List.head?_cons, Option.some_inj, Option.some_inj]
      exact asciiChar_eq_iff hbyte hother
  | others hrun hshown _ =>
      exact iff_of_false (head?_append_of_isStretch hshown hchar)
        (head?_append_of_isStretch hrun hascii)

/-- It makes no difference whether line ends are folded in the bytes or in the characters. -/
theorem foldEnds (h : Shows bytes chars) :
    Shows (foldEnds 0x0D 0x0A bytes) (foldEnds '\r' '\n' chars) := by
  induction h with
  | nil => exact .nil
  | @ascii byte bytes chars hbyte hrest ih =>
      have hcarriage : asciiChar byte = '\r' ↔ byte = 0x0D := asciiChar_eq_iff hbyte rfl
      have hfeed : chars.head? = some '\n' ↔ bytes.head? = some 0x0A :=
        hrest.head?_eq_iff rfl rfl
      rw [Text.foldEnds, Text.foldEnds]
      simp only [hcarriage, hfeed]
      split
      · split
        · exact ih
        · have hfed := @Shows.ascii 0x0A _ _ rfl ih
          exact hfed
      · exact .ascii hbyte ih
  | others hrun hshown _ ih =>
      rw [foldEnds_append (not_mem_of_isStretch hrun rfl),
        foldEnds_append (not_mem_of_isStretch hshown rfl)]
      exact .others hrun hshown ih

/-- The ASCII characters are those of the ASCII bytes. -/
theorem filter_isAscii (h : Shows bytes chars) :
    chars.filter isAscii = (bytes.filter isAsciiByte).map asciiChar := by
  induction h with
  | nil => rfl
  | ascii hbyte _ ih =>
      rw [List.filter_cons_of_pos hbyte, List.filter_cons_of_pos (isAscii_asciiChar hbyte),
        List.map_cons, ih]
  | others hrun hshown _ ih =>
      rw [filter_append_of_isStretch hrun, filter_append_of_isStretch hshown, ih]

end Shows

end Utf8

/-! ## Source files -/

open Utf8

variable {text : String}

/-- The characters of the ASCII bytes, with every line end as one line feed. -/
def asciiText (bytes : List UInt8) : List Char :=
  ((foldEnds 0x0D 0x0A bytes).filter isAsciiByte).map asciiChar

theorem toList_ofSourceBytes (bytes : List UInt8) :
    (ofSourceBytes bytes).toList = foldEnds '\r' '\n' (decodeLenient bytes) := by
  rw [ofSourceBytes, String.toList_ofList, foldNewlines_eq_foldEnds]

/-- A text without carriage returns is stored without loss. -/
theorem ofSourceBytes_toBytes (h : '\r' ∉ text.toList) : ofSourceBytes (toBytes text) = text := by
  rw [ofSourceBytes, toBytes, decodeLenient_encode, foldNewlines_eq_foldEnds, foldEnds_eq_self h,
    String.ofList_toList]

theorem ofBytes?_toBytes (h : '\r' ∉ text.toList) : ofBytes? (toBytes text) = some text := by
  rw [ofBytes?, toBytes, decode?_encode, Option.map_some, foldNewlines_eq_foldEnds,
    foldEnds_eq_self h, String.ofList_toList]

theorem carriage_not_mem_ofSourceBytes (bytes : List UInt8) :
    '\r' ∉ (ofSourceBytes bytes).toList := by
  rw [toList_ofSourceBytes]
  exact carriage_not_mem_foldEnds (by decide) (decodeLenient bytes)

/-- The ASCII characters of a source file are its ASCII bytes, whatever stands between them. -/
theorem filter_isAscii_ofSourceBytes (bytes : List UInt8) :
    (ofSourceBytes bytes).toList.filter isAscii = asciiText bytes := by
  rw [toList_ofSourceBytes]
  exact (shows_decodeLenient bytes).foldEnds.filter_isAscii

/-- They are so line by line. -/
theorem lines_ofSourceBytes (bytes : List UInt8) :
    (lines (ofSourceBytes bytes).toList).map (List.filter isAscii) = lines (asciiText bytes) := by
  rw [← filter_isAscii_ofSourceBytes]
  exact (fields_filter rfl (ofSourceBytes bytes).toList).symm

end Lineage.Text
