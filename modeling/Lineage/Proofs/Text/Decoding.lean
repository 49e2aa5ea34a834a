import Lineage.Text.Utf8

/-!
# What becomes of bytes when they are decoded

A text that is encoded is decoded to itself.  Any other bytes are decoded as well, and whatever is
malformed in them stays among itself: an ASCII byte is decoded to its own character, and what
stands between two of them is decoded to characters outside of ASCII, at least one if there is
anything.  So bytes are shown as characters stretch by stretch, which is the relation `Shows`.

What carries the second part is an invariant of the decoder.  A character that is under way can be
completed in different ways, but each of them is a character outside of ASCII.

## Main results

* `decodeLenient_encode`, `decode?_encode`: a text is decoded to itself, by either reader.
* `Progress.isSound_step`: no byte leads to a code point that is none of a character's.
* `shows_decodeLenient`: whatever the bytes are, they are shown stretch by stretch.
-/

namespace Lineage.Text.Utf8

/-! ## Bytes within a character -/

section

variable {code missing low high : Nat} {byte : UInt8}

theorem step_last (hlow : low ≤ byte.toNat) (hhigh : byte.toNat ≤ high) :
    step (.within code 0 low high) byte =
      ([some (Char.ofNat (code * 64 + (byte.toNat - 0x80)))], .between) :=
  if_pos ⟨hlow, hhigh⟩

theorem step_further (hlow : low ≤ byte.toNat) (hhigh : byte.toNat ≤ high) :
    step (.within code (missing + 1) low high) byte =
      ([], .within (code * 64 + (byte.toNat - 0x80)) missing 0x80 0xBF) :=
  if_pos ⟨hlow, hhigh⟩

theorem step_outside (h : ¬ (low ≤ byte.toNat ∧ byte.toNat ≤ high)) :
    step (.within code missing low high) byte = (none :: (start byte).1, (start byte).2) :=
  if_neg h

end

/-! ## Characters that were encoded -/

section

variable {code missing low high bits : Nat} {rest : List UInt8}

theorem toNat_toUInt8 {b : Nat} (h : b < 0x100) : b.toUInt8.toNat = b := Nat.mod_eq_of_lt h

theorem decodeFrom_within (hbits : bits < 64) (hlow : low ≤ 0x80 + bits)
    (hhigh : 0x80 + bits ≤ high) :
    decodeFrom (.within code (missing + 1) low high) ((0x80 + bits).toUInt8 :: rest) =
      decodeFrom (.within (code * 64 + bits) missing 0x80 0xBF) rest := by
  have hbyte : (0x80 + bits).toUInt8.toNat = 0x80 + bits := toNat_toUInt8 (by omega)
  rw [← hbyte] at hlow hhigh
  rw [decodeFrom, step_further hlow hhigh, hbyte, Nat.add_sub_cancel_left]
  rfl

theorem decodeFrom_last (hbits : bits < 64) (hlow : low ≤ 0x80 + bits)
    (hhigh : 0x80 + bits ≤ high) :
    decodeFrom (.within code 0 low high) ((0x80 + bits).toUInt8 :: rest) =
      some (Char.ofNat (code * 64 + bits)) :: decodeFrom .between rest := by
  have hbyte : (0x80 + bits).toUInt8.toNat = 0x80 + bits := toNat_toUInt8 (by omega)
  rw [← hbyte] at hlow hhigh
  rw [decodeFrom, step_last hlow hhigh, hbyte, Nat.add_sub_cancel_left]
  rfl

theorem decodeFrom_one (h : code < 0x80) :
    decodeFrom .between (code.toUInt8 :: rest) =
      some (Char.ofNat code) :: decodeFrom .between rest := by
  have hbyte : code.toUInt8.toNat = code := toNat_toUInt8 (by omega)
  rw [decodeFrom, step, start, hbyte]
  simp only [h, if_true, List.singleton_append]

theorem decodeFrom_two (hbits : bits < 32) (hleast : 2 ≤ bits) :
    decodeFrom .between ((0xC0 + bits).toUInt8 :: rest) =
      decodeFrom (.within bits 0 0x80 0xBF) rest := by
  have hstart : ∀ bits < 32, 2 ≤ bits →
      start (0xC0 + bits).toUInt8 = ([], .within bits 0 0x80 0xBF) := by decide
  rw [decodeFrom, step, hstart bits hbits hleast]
  rfl

/-- Behind `E0` and `ED` not every byte is allowed, so that nothing is encoded in more bytes than it
takes, and no half of a pair is. -/
theorem decodeFrom_three (hbits : bits < 16) :
    decodeFrom .between ((0xE0 + bits).toUInt8 :: rest) =
      decodeFrom (.within bits 1 (if bits = 0 then 0xA0 else 0x80)
        (if bits = 13 then 0x9F else 0xBF)) rest := by
  have hstart : ∀ bits < 16, start (0xE0 + bits).toUInt8 =
      ([], .within bits 1 (if bits = 0 then 0xA0 else 0x80)
        (if bits = 13 then 0x9F else 0xBF)) := by decide
  rw [decodeFrom, step, hstart bits hbits]
  rfl

/-- Behind `F0` and `F4` not every byte is allowed, so that nothing is encoded in more bytes than it
takes, and nothing beyond the last code point is. -/
theorem decodeFrom_four (hbits : bits < 5) :
    decodeFrom .between ((0xF0 + bits).toUInt8 :: rest) =
      decodeFrom (.within bits 2 (if bits = 0 then 0x90 else 0x80)
        (if bits = 4 then 0x8F else 0xBF)) rest := by
  have hstart : ∀ bits < 5, start (0xF0 + bits).toUInt8 =
      ([], .within bits 2 (if bits = 0 then 0x90 else 0x80)
        (if bits = 4 then 0x8F else 0xBF)) := by decide
  rw [decodeFrom, step, hstart bits hbits]
  rfl

theorem toNat_cases (c : Char) : c.toNat < 0xD800 ∨ 0xDFFF < c.toNat ∧ c.toNat < 0x110000 := c.valid

/-- An encoded character is decoded to itself, whatever follows. -/
theorem decodeFrom_encodeChar (c : Char) (rest : List UInt8) :
    decodeFrom .between (encodeChar c ++ rest) = some c :: decodeFrom .between rest := by
  have hvalid := toNat_cases c
  have hchar : Char.ofNat c.toNat = c := Char.ofNat_toNat c
  rw [encodeChar]
  generalize c.toNat = n at hvalid hchar
  by_cases hone : n < 0x80
  · rw [if_pos hone]
    show decodeFrom .between (n.toUInt8 :: rest) = _
    rw [decodeFrom_one hone, hchar]
  by_cases htwo : n < 0x800
  · rw [if_neg hone, if_pos htwo]
    show decodeFrom .between ((0xC0 + n / 64).toUInt8 :: (0x80 + n % 64).toUInt8 :: rest) = _
    have hcode : n / 64 * 64 + n % 64 = n := by omega
    rw [decodeFrom_two (by omega) (by omega), decodeFrom_last (by omega) (by omega) (by omega),
      hcode, hchar]
  by_cases hthree : n < 0x10000
  · rw [if_neg hone, if_neg htwo, if_pos hthree]
    show decodeFrom .between ((0xE0 + n / 4096).toUInt8 :: (0x80 + n / 64 % 64).toUInt8 ::
      (0x80 + n % 64).toUInt8 :: rest) = _
    have hcode : (n / 4096 * 64 + n / 64 % 64) * 64 + n % 64 = n := by omega
    rw [decodeFrom_three (by omega), decodeFrom_within (by omega) (by split <;> omega)
      (by split <;> omega), decodeFrom_last (by omega) (by omega) (by omega), hcode, hchar]
  · rw [if_neg hone, if_neg htwo, if_neg hthree]
    show decodeFrom .between ((0xF0 + n / 262144).toUInt8 :: (0x80 + n / 4096 % 64).toUInt8 ::
      (0x80 + n / 64 % 64).toUInt8 :: (0x80 + n % 64).toUInt8 :: rest) = _
    have hcode :
        ((n / 262144 * 64 + n / 4096 % 64) * 64 + n / 64 % 64) * 64 + n % 64 = n := by omega
    rw [decodeFrom_four (by omega), decodeFrom_within (by omega) (by split <;> omega)
      (by split <;> omega), decodeFrom_within (by omega) (by omega) (by omega),
      decodeFrom_last (by omega) (by omega) (by omega), hcode, hchar]

theorem decodeFrom_encode (text : List Char) :
    decodeFrom .between (encode text) = text.map some := by
  induction text with
  | nil => rfl
  | cons c text ih =>
      have hencode : encode (c :: text) = encodeChar c ++ encode text := rfl
      rw [hencode, decodeFrom_encodeChar, ih, List.map_cons]

/-- A text is decoded to itself. -/
theorem decodeLenient_encode (text : List Char) : decodeLenient (encode text) = text := by
  rw [decodeLenient, decodeFrom_encode, List.map_map]
  exact List.map_id text

/-- A text is well-formed as it is encoded. -/
theorem decode?_encode (text : List Char) : decode? (encode text) = some text := by
  rw [decode?, decodeFrom_encode]
  induction text with
  | nil => rfl
  | cons c text ih =>
      rw [List.map_cons, List.mapM_cons, ih]
      rfl

end

/-! ## Characters under way -/

/-- The code points that a character under way can be completed to. -/
inductive Completes : (code missing low high n : Nat) → Prop
  | last {code low high b : Nat} (hlow : low ≤ b) (hhigh : b ≤ high) :
      Completes code 0 low high (code * 64 + (b - 0x80))
  | further {code missing low high b n : Nat} (hlow : low ≤ b) (hhigh : b ≤ high)
      (hrest : Completes (code * 64 + (b - 0x80)) missing 0x80 0xBF n) :
      Completes code (missing + 1) low high n

/-- A character that is under way can only become one outside of ASCII. -/
def Progress.IsSound : Progress → Prop
  | .between => True
  | .within code missing low high =>
      0x80 ≤ low ∧ ∀ n, Completes code missing low high n → 0x80 ≤ n ∧ n.isValidChar

/-- However many bytes are missing, the code points lie between the one of the least bytes and the
one of the greatest. -/
theorem bounds_of_completes {code missing low high n : Nat}
    (h : Completes code missing low high n) :
    (code * 64 + (low - 0x80)) * Nat.pow 64 missing ≤ n ∧
      n < (code * 64 + (high - 0x80) + 1) * Nat.pow 64 missing := by
  induction h with
  | last hlow hhigh =>
      have hpower : Nat.pow 64 0 = 1 := rfl
      rw [hpower]
      omega
  | @further code missing low high b n hlow hhigh _ ih =>
      obtain ⟨hleast, hmost⟩ := ih
      have hpower : Nat.pow 64 (missing + 1) = 64 * Nat.pow 64 missing := Nat.pow_succ'
      have hbelow : (code * 64 + (low - 0x80)) * 64 ≤
          (code * 64 + (b - 0x80)) * 64 + (0x80 - 0x80) := by omega
      have habove : (code * 64 + (b - 0x80)) * 64 + (0xBF - 0x80) + 1 ≤
          (code * 64 + (high - 0x80) + 1) * 64 := by omega
      rw [hpower, ← Nat.mul_assoc, ← Nat.mul_assoc]
      exact ⟨Nat.le_trans (Nat.mul_le_mul_right _ hbelow) hleast,
        Nat.lt_of_lt_of_le hmost (Nat.mul_le_mul_right _ habove)⟩

theorem isValidChar_iff {n : Nat} :
    n.isValidChar ↔ n < 0xD800 ∨ 0xDFFF < n ∧ n < 0x110000 := Iff.rfl

/-- A character under way is sound if the code points between its bounds are. -/
theorem isSound_within {code missing low high size : Nat} (hsize : Nat.pow 64 missing = size)
    (hlow : 0x80 ≤ low) (hleast : 0x80 ≤ (code * 64 + (low - 0x80)) * size)
    (hvalid : (code * 64 + (high - 0x80) + 1) * size ≤ 0xD800 ∨
      0xE000 ≤ (code * 64 + (low - 0x80)) * size ∧
        (code * 64 + (high - 0x80) + 1) * size ≤ 0x110000) :
    (Progress.within code missing low high).IsSound := by
  refine ⟨hlow, fun n hn => ?_⟩
  have hbounds := bounds_of_completes hn
  rw [hsize] at hbounds
  rw [isValidChar_iff]
  omega

/-- What a byte does between two characters: it is one of ASCII, or it is malformed, or it starts a
character outside of ASCII. -/
theorem start_cases (byte : UInt8) :
    byte.toNat < 0x80 ∧ start byte = ([some (Char.ofNat byte.toNat)], .between) ∨
      0x80 ≤ byte.toNat ∧ (start byte = ([none], .between) ∨
        ∃ code missing low high, start byte = ([], .within code missing low high) ∧
          (Progress.within code missing low high).IsSound) := by
  rw [start]
  generalize byte.toNat = b
  by_cases hascii : b < 0x80
  · exact .inl ⟨hascii, if_pos hascii⟩
  · refine .inr ⟨Nat.not_lt.mp hascii, ?_⟩
    rw [if_neg hascii]
    split
    · exact .inl rfl
    split
    · have hsize : Nat.pow 64 0 = 1 := rfl
      exact .inr ⟨_, _, _, _, rfl, isSound_within hsize (by decide) (by omega) (by omega)⟩
    split
    · have hsize : Nat.pow 64 1 = 64 := rfl
      exact .inr ⟨_, _, _, _, rfl, isSound_within hsize (by decide) (by omega) (by omega)⟩
    split
    · have hsize : Nat.pow 64 1 = 64 := rfl
      exact .inr ⟨_, _, _, _, rfl, isSound_within hsize (by decide) (by omega) (by omega)⟩
    split
    · have hsize : Nat.pow 64 1 = 64 := rfl
      exact .inr ⟨_, _, _, _, rfl, isSound_within hsize (by decide) (by omega) (by omega)⟩
    split
    · have hsize : Nat.pow 64 2 = 4096 := rfl
      exact .inr ⟨_, _, _, _, rfl, isSound_within hsize (by decide) (by omega) (by omega)⟩
    split
    · have hsize : Nat.pow 64 2 = 4096 := rfl
      exact .inr ⟨_, _, _, _, rfl, isSound_within hsize (by decide) (by omega) (by omega)⟩
    split
    · have hsize : Nat.pow 64 2 = 4096 := rfl
      exact .inr ⟨_, _, _, _, rfl, isSound_within hsize (by decide) (by omega) (by omega)⟩
    · exact .inl rfl

theorem isSound_start (byte : UInt8) : (start byte).2.IsSound := by
  obtain ⟨-, hstart⟩ | ⟨-, hstart | ⟨code, missing, low, high, hstart, hsound⟩⟩ := start_cases byte
  · rw [hstart]
    trivial
  · rw [hstart]
    trivial
  · rw [hstart]
    exact hsound

/-- One more byte leaves fewer ways to complete a character. -/
theorem Progress.IsSound.further {code missing low high b : Nat}
    (h : (Progress.within code (missing + 1) low high).IsSound) (hlow : low ≤ b)
    (hhigh : b ≤ high) :
    (Progress.within (code * 64 + (b - 0x80)) missing 0x80 0xBF).IsSound :=
  ⟨Nat.le_refl _, fun n hn => h.2 n (.further hlow hhigh hn)⟩

/-- No byte leads to a code point that is none of a character's, or to an ASCII character in
disguise. -/
theorem Progress.isSound_step {progress : Progress} (h : progress.IsSound) (byte : UInt8) :
    (step progress byte).2.IsSound := by
  cases progress with
  | between => exact isSound_start byte
  | within code missing low high =>
      by_cases hrange : low ≤ byte.toNat ∧ byte.toNat ≤ high
      · cases missing with
        | zero =>
            rw [step_last hrange.1 hrange.2]
            trivial
        | succ missing =>
            rw [step_further hrange.1 hrange.2]
            exact h.further hrange.1 hrange.2
      · rw [step_outside hrange]
        exact isSound_start byte

/-! ## Stretches of bytes and of characters -/

/-- A byte of ASCII. -/
def isAsciiByte (byte : UInt8) : Bool := byte.toNat < 0x80

/-- A character of ASCII. -/
def isAscii (c : Char) : Bool := c.toNat < 0x80

/-- The character of an ASCII byte. -/
def asciiChar (byte : UInt8) : Char := Char.ofNat byte.toNat

/-- A stretch without members of a class. -/
structure IsStretchWithout {α : Type} (among : α → Bool) (part : List α) : Prop where
  ne_nil : part ≠ []
  outside : ∀ a ∈ part, among a = false

/-- The characters show the bytes: each ASCII byte its own character, and each stretch of others a
stretch of others. -/
inductive Shows : List UInt8 → List Char → Prop
  | nil : Shows [] []
  | ascii {byte : UInt8} {bytes : List UInt8} {chars : List Char}
      (hascii : isAsciiByte byte = true) (hrest : Shows bytes chars) :
      Shows (byte :: bytes) (asciiChar byte :: chars)
  | others {run bytes : List UInt8} {shown chars : List Char}
      (hrun : IsStretchWithout isAsciiByte run) (hshown : IsStretchWithout isAscii shown)
      (hrest : Shows bytes chars) : Shows (run ++ bytes) (shown ++ chars)

/-! ## Whatever the bytes are -/

section

variable {run bytes : List UInt8} {byte : UInt8} {c : Char}

theorem toNat_ofNat {n : Nat} (hvalid : n.isValidChar) : (Char.ofNat n).toNat = n := by
  rw [Char.ofNat, dif_pos hvalid]
  rfl

theorem isAscii_ofNat {n : Nat} (h : 0x80 ≤ n) (hvalid : n.isValidChar) :
    isAscii (Char.ofNat n) = false := by
  rw [isAscii, toNat_ofNat hvalid]
  exact decide_eq_false (Nat.not_lt.mpr h)

theorem isStretch_singleton {α : Type} {among : α → Bool} {a : α} (h : among a = false) :
    IsStretchWithout among [a] where
  ne_nil := List.cons_ne_nil a []
  outside b hb := by rwa [List.mem_singleton.mp hb]

theorem IsStretchWithout.concat {α : Type} {among : α → Bool} {part : List α} {a : α}
    (h : IsStretchWithout among part) (ha : among a = false) :
    IsStretchWithout among (part ++ [a]) where
  ne_nil := List.append_ne_nil_of_left_ne_nil h.ne_nil [a]
  outside b hb := by
    rcases List.mem_append.mp hb with hb | hb
    · exact h.outside b hb
    · rwa [List.mem_singleton.mp hb]

/-- The characters that are shown, with one for each malformed stretch. -/
def shown (chars : List (Option Char)) : List Char := chars.map (·.getD '\uFFFD')

theorem shown_cons_some (chars : List (Option Char)) : shown (some c :: chars) = c :: shown chars :=
  rfl

theorem Shows.malformed (hrun : IsStretchWithout isAsciiByte run)
    {chars : List (Option Char)} (hrest : Shows bytes (shown chars)) :
    Shows (run ++ bytes) (shown (none :: chars)) :=
  .others hrun (isStretch_singleton (by decide : isAscii '\uFFFD' = false)) hrest

/-- The bytes are shown by what they are decoded to between two characters.  Within a character they
are so together with the bytes of it that were read before. -/
theorem shows_decodeFrom (bytes : List UInt8) :
    Shows bytes (shown (decodeFrom .between bytes)) ∧
      ∀ code missing low high run, (Progress.within code missing low high).IsSound →
        IsStretchWithout isAsciiByte run →
          Shows (run ++ bytes) (shown (decodeFrom (.within code missing low high) bytes)) := by
  induction bytes with
  | nil => exact ⟨.nil, fun _ _ _ _ _ _ hrun => .malformed hrun .nil⟩
  | cons byte bytes ih =>
      obtain ⟨hbetween, hwithin⟩ := ih
      have hfresh : Shows (byte :: bytes) (shown (decodeFrom .between (byte :: bytes))) := by
        rw [decodeFrom, step]
        obtain ⟨hascii, hstart⟩ | ⟨hother, hstart | ⟨code, missing, low, high, hstart, hsound⟩⟩ :=
          start_cases byte
        · rw [hstart]
          exact .ascii (decide_eq_true hascii) hbetween
        · have hrun : IsStretchWithout isAsciiByte [byte] :=
            isStretch_singleton (decide_eq_false (Nat.not_lt.mpr hother))
          rw [hstart]
          exact .malformed hrun hbetween
        · have hrun : IsStretchWithout isAsciiByte [byte] :=
            isStretch_singleton (decide_eq_false (Nat.not_lt.mpr hother))
          rw [hstart]
          exact hwithin code missing low high [byte] hsound hrun
      refine ⟨hfresh, fun code missing low high run hsound hrun => ?_⟩
      rw [decodeFrom]
      by_cases hrange : low ≤ byte.toNat ∧ byte.toNat ≤ high
      · have hother : 0x80 ≤ byte.toNat := Nat.le_trans hsound.1 hrange.1
        have hlonger : IsStretchWithout isAsciiByte (run ++ [byte]) :=
          hrun.concat (decide_eq_false (Nat.not_lt.mpr hother))
        rw [List.append_cons]
        cases missing with
        | zero =>
            obtain ⟨hcode, hvalid⟩ := hsound.2 _ (.last hrange.1 hrange.2)
            rw [step_last hrange.1 hrange.2, List.singleton_append, shown_cons_some]
            exact .others hlonger (isStretch_singleton (isAscii_ofNat hcode hvalid)) hbetween
        | succ missing =>
            rw [step_further hrange.1 hrange.2, List.nil_append]
            exact hwithin _ missing 0x80 0xBF _ (hsound.further hrange.1 hrange.2) hlonger
      · rw [step_outside hrange]
        exact .malformed hrun hfresh

end

/-- Whatever the bytes are, they are shown stretch by stretch. -/
theorem shows_decodeLenient (bytes : List UInt8) : Shows bytes (decodeLenient bytes) :=
  (shows_decodeFrom bytes).1

end Lineage.Text.Utf8
